import Mathlib.Data.List.Basic

/-!
# Torznab responses and their XML

The model of `xml.rs`, with the response types of `response.rs` that it renders.  The writer is a
value that every call returns anew; writing to a string cannot fail, so the only error is that of an
end without a start.

The calendar is a library's.  Of a date only the formatted text is modelled, of which the format
says that its characters are printable ASCII.
-/

namespace Bitmagnet.Torznab

/-! ## Responses -/

structure CapsServer where
  title : String

structure CapsLimits where
  max : UInt32
  default : UInt32

structure CapsSearch where
  available : String
  supportedParams : String

/-- The six search modes, in their order on the wire. -/
structure CapsSearching where
  search : CapsSearch
  tvSearch : CapsSearch
  movieSearch : CapsSearch
  musicSearch : CapsSearch
  audioSearch : CapsSearch
  bookSearch : CapsSearch

structure Subcategory where
  id : Int32
  name : String

structure Category where
  id : Int32
  name : String
  subcat : List Subcategory

structure Caps where
  server : CapsServer
  limits : CapsLimits
  searching : CapsSearching
  categories : List Category
  tags : String

/-- A date, by what `format` returns for `%a, %d %b %Y %H:%M:%S %z`. -/
structure RssDate where
  format : String
  printable : ∀ c ∈ format.toList, 0x20 ≤ c.toNat ∧ c.toNat ≤ 0x7E

structure Response where
  offset : UInt32
  total : UInt32

structure Enclosure where
  url : String
  length : String
  type : String

structure TorznabAttr where
  name : String
  value : String

structure Item where
  title : String
  guid : Option String
  pubDate : RssDate
  category : Option String
  link : Option String
  size : UInt64
  description : Option String
  comments : Option String
  enclosure : Enclosure
  torznabAttrs : List TorznabAttr

structure Channel where
  title : Option String
  link : Option String
  description : Option String
  language : Option String
  pubDate : RssDate
  lastBuildDate : RssDate
  docs : Option String
  generator : Option String
  response : Response
  items : List Item

structure SearchResult where
  channel : Channel

structure TorznabError where
  code : Int32
  description : String

/-! ## The writer -/

/-- `XmlError`, whose one variant wraps `fmt::Error`. -/
inductive XmlError
  | format
  deriving DecidableEq

inductive AttributeValue
  | text (value : String)
  | i32 (value : Int32)
  | u32 (value : UInt32)

abbrev Attribute := String × AttributeValue

/-- One turn of the loop of `push_escaped_xml`. -/
def pushEscapedChar (output : String) (character : Char) : String :=
  match character with
  | '&' => output ++ "&amp;"
  | '<' => output ++ "&lt;"
  | '>' => output ++ "&gt;"
  | '"' => output ++ "&#34;"
  | '\'' => output ++ "&#39;"
  | '\t' => output ++ "&#x9;"
  | '\n' => output ++ "&#xA;"
  | '\r' => output ++ "&#xD;"
  | _ => output.push character

def pushEscapedXml (output value : String) : String :=
  value.toList.foldl pushEscapedChar output

def xmlHeader : String := "<?xml version=\"1.0\" encoding=\"UTF-8\"?>\n"

structure XmlWriter where
  output : String
  depth : Nat

namespace XmlWriter

def new : XmlWriter := ⟨xmlHeader, 0⟩

/-- `push_str` on the output. -/
def pushStr (writer : XmlWriter) (text : String) : XmlWriter :=
  { writer with output := writer.output ++ text }

def startLine (writer : XmlWriter) : XmlWriter :=
  (List.range writer.depth).foldl (fun writer _ => writer.pushStr "  ") (writer.pushStr "\n")

/-- `push_escaped_xml` on the output. -/
def pushEscaped (writer : XmlWriter) (value : String) : XmlWriter :=
  { writer with output := pushEscapedXml writer.output value }

/-- The value of an attribute, in the loop of `write_start_tag`. -/
def writeValue (writer : XmlWriter) : AttributeValue → XmlWriter
  | .text value => writer.pushEscaped value
  | .i32 value => writer.pushStr (toString value.toInt)
  | .u32 value => writer.pushStr (toString value.toNat)

/-- One turn of the loop of `write_start_tag`. -/
def writeAttribute (writer : XmlWriter) (attr : Attribute) : XmlWriter :=
  ((((writer.pushStr " ").pushStr attr.1).pushStr "=\"").writeValue attr.2).pushStr "\""

def writeStartTag (writer : XmlWriter) (name : String) (attributes : List Attribute) :
    Except XmlError XmlWriter :=
  .ok ((attributes.foldl writeAttribute ((writer.pushStr "<").pushStr name)).pushStr ">")

def writeEndTag (writer : XmlWriter) (name : String) : XmlWriter :=
  ((writer.pushStr "</").pushStr name).pushStr ">"

def rootStart (writer : XmlWriter) (name : String) (attributes : List Attribute) :
    Except XmlError XmlWriter := do
  let writer ← writer.writeStartTag name attributes
  return { writer with depth := writer.depth + 1 }

def rootExpanded (writer : XmlWriter) (name : String) (attributes : List Attribute) :
    Except XmlError XmlWriter := do
  let writer ← writer.writeStartTag name attributes
  return writer.writeEndTag name

def start (writer : XmlWriter) (name : String) (attributes : List Attribute) :
    Except XmlError XmlWriter := do
  let writer ← writer.startLine.writeStartTag name attributes
  return { writer with depth := writer.depth + 1 }

def expanded (writer : XmlWriter) (name : String) (attributes : List Attribute) :
    Except XmlError XmlWriter := do
  let writer ← writer.startLine.writeStartTag name attributes
  return writer.writeEndTag name

def text (writer : XmlWriter) (name value : String) : Except XmlError XmlWriter := do
  let writer ← writer.startLine.writeStartTag name []
  return (writer.pushEscaped value).writeEndTag name

/-- `display`, which is called for the size of an item. -/
def display (writer : XmlWriter) (name : String) (value : UInt64) : Except XmlError XmlWriter := do
  let writer ← writer.startLine.writeStartTag name []
  return (writer.pushStr (toString value.toNat)).writeEndTag name

/-- `end`. -/
def endElement (writer : XmlWriter) (name : String) : Except XmlError XmlWriter :=
  -- `checked_sub` on the depth
  if writer.depth = 0 then .error .format
  else .ok ((startLine { writer with depth := writer.depth - 1 }).writeEndTag name)

def finish (writer : XmlWriter) : ByteArray := writer.output.toUTF8

end XmlWriter

/-! ## Capabilities -/

/-- `limit_attributes` and `response_attributes`: a number is an attribute unless it is zero. -/
def nonzeroAttribute (name : String) (value : UInt32) : List Attribute :=
  if value = 0 then [] else [(name, .u32 value)]

def renderCapsSearch (writer : XmlWriter) (elementName : String) (search : CapsSearch) :
    Except XmlError XmlWriter :=
  writer.expanded elementName (("available", .text search.available) ::
    if search.supportedParams.isEmpty then []
    else [("supportedParams", .text search.supportedParams)])

def renderSubcategory (writer : XmlWriter) (subcategory : Subcategory) :
    Except XmlError XmlWriter :=
  writer.expanded "subcat" [("id", .i32 subcategory.id), ("name", .text subcategory.name)]

def renderCategory (writer : XmlWriter) (category : Category) : Except XmlError XmlWriter :=
  let attributes := [("id", .i32 category.id), ("name", .text category.name)]
  if category.subcat.isEmpty then writer.expanded "category" attributes
  else do
    let writer ← writer.start "category" attributes
    let writer ← category.subcat.foldlM renderSubcategory writer
    writer.endElement "category"

/-- The branch of `render_caps` on whether there are categories. -/
def renderCategories (writer : XmlWriter) (categories : List Category) :
    Except XmlError XmlWriter :=
  if categories.isEmpty then writer.expanded "categories" []
  else do
    let writer ← writer.start "categories" []
    let writer ← categories.foldlM renderCategory writer
    writer.endElement "categories"

def renderCaps (caps : Caps) : Except XmlError ByteArray := do
  let writer ← XmlWriter.new.rootStart "caps" []
  let writer ← writer.expanded "server" [("title", .text caps.server.title)]
  let writer ← writer.expanded "limits"
    (nonzeroAttribute "max" caps.limits.max ++ nonzeroAttribute "default" caps.limits.default)
  let writer ← writer.start "searching" []
  let writer ← renderCapsSearch writer "search" caps.searching.search
  let writer ← renderCapsSearch writer "tv-search" caps.searching.tvSearch
  let writer ← renderCapsSearch writer "movie-search" caps.searching.movieSearch
  let writer ← renderCapsSearch writer "music-search" caps.searching.musicSearch
  let writer ← renderCapsSearch writer "audio-search" caps.searching.audioSearch
  let writer ← renderCapsSearch writer "book-search" caps.searching.bookSearch
  let writer ← writer.endElement "searching"
  let writer ← renderCategories writer caps.categories
  let writer ← writer.text "tags" caps.tags
  let writer ← writer.endElement "caps"
  return writer.finish

/-! ## Search results and errors -/

def atomNamespace : String := "http://www.w3.org/2005/Atom"

def torznabNamespace : String := "http://torznab.com/schemas/2015/feed"

def newznabNamespace : String := "http://www.newznab.com/DTD/2010/feeds/attributes/"

def renderOptionalText (writer : XmlWriter) (elementName : String) (value : Option String) :
    Except XmlError XmlWriter :=
  match value.filter fun value => !value.isEmpty with
  | some value => writer.text elementName value
  | none => .ok writer

def renderTorznabAttr (writer : XmlWriter) (attr : TorznabAttr) : Except XmlError XmlWriter :=
  writer.expanded "torznab:attr" [("name", .text attr.name), ("value", .text attr.value)]

def renderItem (writer : XmlWriter) (item : Item) : Except XmlError XmlWriter := do
  let writer ← writer.start "item" []
  let writer ← writer.text "title" item.title
  let writer ← renderOptionalText writer "guid" item.guid
  let writer ← writer.text "pubDate" item.pubDate.format
  let writer ← renderOptionalText writer "category" item.category
  let writer ← renderOptionalText writer "link" item.link
  let writer ← writer.display "size" item.size
  let writer ← renderOptionalText writer "description" item.description
  let writer ← renderOptionalText writer "comments" item.comments
  let writer ← writer.expanded "enclosure" [("url", .text item.enclosure.url),
    ("length", .text item.enclosure.length), ("type", .text item.enclosure.type)]
  let writer ← item.torznabAttrs.foldlM renderTorznabAttr writer
  writer.endElement "item"

def renderChannel (writer : XmlWriter) (channel : Channel) : Except XmlError XmlWriter := do
  let writer ← writer.start "channel" []
  let writer ← renderOptionalText writer "title" channel.title
  let writer ← renderOptionalText writer "link" channel.link
  let writer ← renderOptionalText writer "description" channel.description
  let writer ← renderOptionalText writer "language" channel.language
  let writer ← writer.text "pubDate" channel.pubDate.format
  let writer ← writer.text "lastBuildDate" channel.lastBuildDate.format
  let writer ← renderOptionalText writer "docs" channel.docs
  let writer ← renderOptionalText writer "generator" channel.generator
  let writer ← writer.expanded "response" (("xmlns", .text newznabNamespace) ::
    (nonzeroAttribute "offset" channel.response.offset ++
      nonzeroAttribute "total" channel.response.total))
  let writer ← channel.items.foldlM renderItem writer
  writer.endElement "channel"

def renderSearchResult (result : SearchResult) : Except XmlError ByteArray := do
  let writer ← XmlWriter.new.rootStart "rss" [("version", .text "2.0"),
    ("xmlns:atom", .text atomNamespace), ("xmlns:torznab", .text torznabNamespace)]
  let writer ← renderChannel writer result.channel
  let writer ← writer.endElement "rss"
  return writer.finish

def renderError (error : TorznabError) : Except XmlError ByteArray := do
  let writer ← XmlWriter.new.rootExpanded "error" [("error", .i32 error.code),
    ("description", .text error.description)]
  return writer.finish

end Bitmagnet.Torznab
