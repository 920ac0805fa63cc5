import Bitmagnet.Library.Fallible
import Bitmagnet.Library.XmlRoundTrip
import Bitmagnet.Torznab.Render

/-!
# Torznab output is read back

Every response is a tree (`Document.tree`), and rendering it is the layout of that tree: `draw` puts
elements on lines of their own, and each call of the writer is one `draw`.  The escaping of
`push_escaped_xml` is one that a reader undoes, for the characters that a document may have.  So where
the strings of a response have only such characters, its bytes are a well-formed document, and the
tree read from them is the tree of the response.

The escaping passes every other character on.  One of those anywhere in a response leaves bytes that
are no document at all.
-/

namespace Bitmagnet.Torznab

open Xml

/-! ## The escaping -/

/-- What `push_escaped_xml` writes for a character. -/
def escape (c : Char) : List Char := (pushEscapedChar "" c).toList

lemma toList_pushEscapedChar (output : String) (c : Char) :
    (pushEscapedChar output c).toList = output.toList ++ escape c := by
  unfold escape pushEscapedChar
  split <;> simp

lemma toList_pushEscapedXml (output value : String) :
    (pushEscapedXml output value).toList = output.toList ++ escaped escape value.toList := by
  have hfold : ∀ (cs : List Char) (output : String),
      (cs.foldl pushEscapedChar output).toList = output.toList ++ escaped escape cs := by
    intro cs
    induction cs with
    | nil => intro output; simp [escaped]
    | cons c cs ih =>
      intro output
      rw [List.foldl_cons, ih, toList_pushEscapedChar, escaped, escaped, List.flatMap_cons,
        List.append_assoc]
  exact hfold value.toList output

/-- The characters that are written as references. -/
def special : List Char := ['&', '<', '>', '"', '\'', '\t', '\n', '\r']

/-- What is written for them. -/
def references : List (Char × List Char) :=
  [('&', "&amp;".toList), ('<', "&lt;".toList), ('>', "&gt;".toList), ('"', "&#34;".toList),
   ('\'', "&#39;".toList), ('\t', "&#x9;".toList), ('\n', "&#xA;".toList), ('\r', "&#xD;".toList)]

/-- A character is written as a reference, or it is none of those and stands for itself. -/
lemma escape_cases (c : Char) : (c, escape c) ∈ references ∨ (escape c = [c] ∧ c ∉ special) := by
  unfold escape pushEscapedChar
  split <;> simp_all [references, special]

variable {c : Char} {attributes : List Attribute} {name : String}

lemma escape_plain (h : c ∉ special) : escape c = [c] := by
  have hspecial : ∀ r ∈ references, r.1 ∈ special := by decide
  rcases escape_cases c with href | ⟨hself, -⟩
  · exact absurd (hspecial _ href) h
  · exact hself

/-- A character that stands for itself is read as itself; white space among those is the space. -/
lemma decode_plain (quoted : Bool) (rest : List Char) (hc : isChar c = true) (h : c ∉ special) :
    decode quoted none (c :: rest) = (decode quoted none rest).map (c :: ·) := by
  simp only [special, List.mem_cons, List.not_mem_nil, or_false, not_or] at h
  obtain ⟨hamp, hlt, -, -, -, htab, hline, hreturn⟩ := h
  have hkeep : (if (quoted && isSpace c) = true then ' ' else c) = c := by
    split
    · rename_i hspace
      simp only [isSpace, htab, hline, hreturn, decide_false, Bool.or_false, Bool.and_eq_true,
        decide_eq_true_eq] at hspace
      exact hspace.2.symm
    · rfl
  rw [decode, if_neg hamp, if_pos (by simp [hc, hlt, hreturn]), hkeep]

lemma escape_escaping : Escaping escape where
  decodes quoted c rest hc := by
    have hrefs : ∀ r ∈ references,
        decode quoted none (r.2 ++ rest) = (decode quoted none rest).map (r.1 :: ·) := by
      simp only [references, List.forall_mem_cons]
      exact ⟨rfl, rfl, rfl, rfl, rfl, rfl, rfl, rfl, by simp⟩
    rcases escape_cases c with href | ⟨hself, hplain⟩
    · exact hrefs _ href
    · rw [hself]
      exact decode_plain quoted rest hc hplain
  hides c _ := by
    have hrefs : ∀ r ∈ references, r.2.all fun d => d ≠ '<' ∧ d ≠ '>' ∧ d ≠ '"' := by decide
    rcases escape_cases c with href | ⟨hself, hplain⟩
    · exact List.all_iff_forall_prop.mp (hrefs _ href)
    · rw [hself]
      simp only [special, List.mem_cons, List.not_mem_nil, or_false, not_or] at hplain
      simp only [List.mem_singleton, forall_eq]
      exact ⟨hplain.2.1, hplain.2.2.1, hplain.2.2.2.1⟩

/-! ## Numbers are written without escaping -/

lemma escaped_eq_self {text : List Char} (h : ∀ c ∈ text, c ∉ special) :
    escaped escape text = text := by
  induction text with
  | nil => rfl
  | cons c text ih =>
    obtain ⟨hc, htext⟩ := List.forall_mem_cons.mp h
    have hrest := ih htext
    rw [escaped] at hrest
    rw [escaped, List.flatMap_cons, escape_plain hc, hrest]
    rfl

/-- The characters of a number. -/
def isNumeric (c : Char) : Prop := c.isDigit = true ∨ c = '-'

lemma isNumeric_repr (n : Nat) : ∀ c ∈ n.repr.toList, isNumeric c := by
  intro c hc
  rw [Nat.toList_repr] at hc
  exact .inl (Nat.isDigit_of_mem_toDigits (by decide) (by decide) hc)

lemma isNumeric_toString (n : Int) : ∀ c ∈ (toString n).toList, isNumeric c := by
  cases n with
  | ofNat n => exact isNumeric_repr n
  | negSucc n =>
    intro c hc
    have hsplit : (toString (Int.negSucc n)).toList = '-' :: (n + 1).repr.toList :=
      String.toList_append
    rw [hsplit] at hc
    rcases List.mem_cons.mp hc with rfl | hc
    · exact .inr rfl
    · exact isNumeric_repr (n + 1) c hc

lemma isNumeric.toNat (h : isNumeric c) : 45 ≤ c.toNat ∧ c.toNat ≤ 57 := by
  rcases h with h | rfl
  · simp only [Char.isDigit, Bool.and_eq_true, decide_eq_true_eq] at h
    have hlow : 48 ≤ c.toNat := h.1
    have hhigh : c.toNat ≤ 57 := h.2
    omega
  · decide

lemma isNumeric.plain (h : isNumeric c) : c ∉ special := by
  have hbounds := h.toNat
  simp only [special, List.mem_cons, List.not_mem_nil, or_false, not_or]
  refine ⟨?_, ?_, ?_, ?_, ?_, ?_, ?_, ?_⟩ <;> rintro rfl <;> exact absurd hbounds (by decide)

lemma isChar_of_printable (h : 0x20 ≤ c.toNat ∧ c.toNat ≤ 0x7E) : isChar c = true := by
  have hrange : (0x20 ≤ c.toNat && c.toNat ≤ 0xD7FF) = true := by
    simp only [Bool.and_eq_true, decide_eq_true_eq]
    omega
  simp [isChar, hrange]

lemma legal_of_numeric {text : List Char} (h : ∀ c ∈ text, isNumeric c) : Legal text := by
  intro c hc
  have hbounds := (h c hc).toNat
  exact isChar_of_printable ⟨by omega, by omega⟩

/-! ## What the writer draws -/

namespace AttributeValue

/-- The text of a value, before escaping. -/
def toText : AttributeValue → String
  | text value => value
  | i32 value => toString value.toInt
  | u32 value => toString value.toNat

@[simp] lemma toText_text (value : String) : (text value).toText = value := rfl

end AttributeValue

def attrOf (attr : Attribute) : Attr := (attr.1.toList, attr.2.toText.toList)

def leafOf (name : String) (attributes : List Attribute) (text : String) : Elem :=
  .leaf name.toList (attributes.map attrOf) text.toList

def branchOf (name : String) (attributes : List Attribute) (children : List Elem) : Elem :=
  .branch name.toList (attributes.map attrOf) children

namespace XmlWriter

variable (writer : XmlWriter)

/-- The writer after more text. -/
def append (text : List Char) : XmlWriter :=
  { writer with output := writer.output ++ String.ofList text }

/-- The writer after elements, each on a line of its own. -/
def draw (es : List Elem) : XmlWriter := writer.append (Elem.layoutAll escape writer.depth es)

/-- The writer inside an element. -/
def enter (name : String) (attributes : List Attribute) : XmlWriter :=
  { writer.append (indent writer.depth ++
      startTag escape name.toList (attributes.map attrOf)) with depth := writer.depth + 1 }

@[simp] lemma append_depth (text : List Char) : (writer.append text).depth = writer.depth := rfl

lemma append_append (a b : List Char) : (writer.append a).append b = writer.append (a ++ b) := by
  simp [append, String.append_assoc, String.ofList_append]

lemma pushStr_eq (text : String) : writer.pushStr text = writer.append text.toList := by
  simp [pushStr, append]

lemma startLine_eq : writer.startLine = writer.append (indent writer.depth) := by
  have hfold : ∀ (n : Nat) (w : XmlWriter),
      (List.range n).foldl (fun w _ => w.pushStr "  ") w =
        w.append (List.replicate (2 * n) ' ') := by
    intro n
    induction n with
    | zero => intro w; simp [append]
    | succ n ih =>
      intro w
      rw [List.range_succ, List.foldl_append, ih, List.foldl_cons, List.foldl_nil, pushStr_eq,
        append_append, Nat.mul_succ, List.replicate_add]
      rfl
  rw [startLine, hfold, pushStr_eq, append_append]
  rfl

lemma pushEscaped_eq (value : String) :
    writer.pushEscaped value = writer.append (escaped escape value.toList) := by
  simp only [pushEscaped, append, XmlWriter.mk.injEq, and_true]
  rw [← String.toList_inj, toList_pushEscapedXml, String.toList_append, String.toList_ofList]

/-- A number is written as it is, which is how escaping would write it. -/
lemma writeValue_eq (value : AttributeValue) :
    writer.writeValue value = writer.append (escaped escape value.toText.toList) := by
  cases value with
  | text value => exact pushEscaped_eq writer value
  | i32 value =>
    have hself := escaped_eq_self fun c hc => (isNumeric_toString value.toInt c hc).plain
    rw [writeValue, AttributeValue.toText, hself, pushStr_eq]
  | u32 value =>
    have hself := escaped_eq_self fun c hc => (isNumeric_repr value.toNat c hc).plain
    rw [writeValue, AttributeValue.toText, pushStr_eq]
    exact congrArg writer.append hself.symm

lemma writeAttribute_eq (attr : Attribute) :
    writer.writeAttribute attr = writer.append (attrText escape (attrOf attr)) := by
  simp only [writeAttribute, writeValue_eq, pushStr_eq, append_append]
  simp [attrText, attrOf]

lemma writeStartTag_eq (name : String) (attributes : List Attribute) :
    writer.writeStartTag name attributes =
      .ok (writer.append (startTag escape name.toList (attributes.map attrOf))) := by
  have hfold : ∀ (attributes : List Attribute) (w : XmlWriter),
      attributes.foldl writeAttribute w =
        w.append ((attributes.map attrOf).flatMap (attrText escape)) := by
    intro attributes
    induction attributes with
    | nil => intro w; simp [append]
    | cons attr attributes ih =>
      intro w
      rw [List.foldl_cons, ih, writeAttribute_eq, append_append]
      rfl
  simp only [writeStartTag, hfold, pushStr_eq, append_append]
  simp [startTag]

lemma writeEndTag_eq (name : String) :
    writer.writeEndTag name = writer.append (endTag name.toList) := by
  simp only [writeEndTag, pushStr_eq, append_append]
  simp [endTag]

lemma draw_draw (es fs : List Elem) : (writer.draw es).draw fs = writer.draw (es ++ fs) := by
  rw [draw, draw, append_depth, append_append, ← Elem.layoutAll_append, draw]

lemma start_eq (name : String) (attributes : List Attribute) :
    writer.start name attributes = .ok (writer.enter name attributes) := by
  simp only [start, startLine_eq, writeStartTag_eq, append_append]
  rfl

lemma expanded_eq (name : String) (attributes : List Attribute) :
    writer.expanded name attributes = .ok (writer.draw [leafOf name attributes ""]) := by
  simp only [expanded, startLine_eq, writeStartTag_eq, append_append]
  change Except.ok _ = _
  rw [writeEndTag_eq, append_append, draw]
  simp [Elem.layoutAll, leafOf, Elem.layout, escaped]

lemma text_eq (name value : String) :
    writer.text name value = .ok (writer.draw [leafOf name [] value]) := by
  simp only [text, startLine_eq, writeStartTag_eq, append_append]
  change Except.ok _ = _
  rw [pushEscaped_eq, writeEndTag_eq, append_append, append_append, draw]
  simp [Elem.layoutAll, leafOf, Elem.layout]

lemma display_eq (name : String) (value : UInt64) :
    writer.display name value = .ok (writer.draw [leafOf name [] (toString value.toNat)]) := by
  have hvalue : escaped escape (toString value.toNat).toList = (toString value.toNat).toList :=
    escaped_eq_self fun c hc => (isNumeric_repr _ c hc).plain
  simp only [display, startLine_eq, writeStartTag_eq, append_append]
  change Except.ok _ = _
  rw [pushStr_eq, writeEndTag_eq, append_append, append_append, draw]
  simp only [Elem.layoutAll, leafOf, Elem.layout, hvalue]
  simp

/-- **An element that was entered is closed around what was drawn in it.** -/
lemma endElement_eq (name : String) (attributes : List Attribute) (es : List Elem) :
    ((writer.enter name attributes).draw es).endElement name =
      .ok (writer.draw [branchOf name attributes es]) := by
  have hdepth : ((writer.enter name attributes).draw es).depth = writer.depth + 1 := rfl
  rw [endElement, if_neg (by rw [hdepth]; omega)]
  rw [startLine_eq, writeEndTag_eq]
  simp only [enter, draw, append, Nat.add_sub_cancel, Elem.layoutAll, branchOf, Elem.layout,
    Except.ok.injEq, XmlWriter.mk.injEq, and_true]
  rw [← String.toList_inj]
  simp

/-- A loop draws what its turns draw, one after the other. -/
lemma foldlM_draw {α : Type} {f : XmlWriter → α → Except XmlError XmlWriter} {g : α → Elem}
    (h : ∀ w a, f w a = .ok (w.draw [g a])) (as : List α) :
    as.foldlM f writer = .ok (writer.draw (as.map g)) := by
  induction as generalizing writer with
  | nil => simp [draw, append, Elem.layoutAll]; rfl
  | cons a as ih => rw [List.foldlM_cons, h, Fallible.ok_bind, ih, draw_draw, List.map_cons]; rfl

/-- What is drawn in the root is the document. -/
lemma root_eq (name : String) (attributes : List Attribute) (es : List Elem) :
    ∃ inside, new.rootStart name attributes = .ok inside ∧
      (inside.draw es).endElement name =
        .ok (new.append ((branchOf name attributes es).layout escape 0)) := by
  refine ⟨⟨(new.append (startTag escape name.toList (attributes.map attrOf))).output, 1⟩, ?_, ?_⟩
  · rw [rootStart, writeStartTag_eq]
    rfl
  · rw [endElement, if_neg (by simp [draw]), startLine_eq, writeEndTag_eq]
    simp only [draw, append, branchOf, Elem.layout, Except.ok.injEq, XmlWriter.mk.injEq]
    refine ⟨?_, rfl⟩
    rw [← String.toList_inj]
    simp [new]

end XmlWriter

/-! ## The trees of responses -/

def capsSearchElem (name : String) (search : CapsSearch) : Elem :=
  leafOf name (("available", .text search.available) ::
    if search.supportedParams.isEmpty then []
    else [("supportedParams", .text search.supportedParams)]) ""

def subcategoryElem (subcategory : Subcategory) : Elem :=
  leafOf "subcat" [("id", .i32 subcategory.id), ("name", .text subcategory.name)] ""

def categoryElem (category : Category) : Elem :=
  let attributes := [("id", .i32 category.id), ("name", .text category.name)]
  if category.subcat.isEmpty then leafOf "category" attributes ""
  else branchOf "category" attributes (category.subcat.map subcategoryElem)

def categoriesElem (categories : List Category) : Elem :=
  if categories.isEmpty then leafOf "categories" [] ""
  else branchOf "categories" [] (categories.map categoryElem)

def searchingElem (searching : CapsSearching) : Elem :=
  branchOf "searching" [] [capsSearchElem "search" searching.search,
    capsSearchElem "tv-search" searching.tvSearch,
    capsSearchElem "movie-search" searching.movieSearch,
    capsSearchElem "music-search" searching.musicSearch,
    capsSearchElem "audio-search" searching.audioSearch,
    capsSearchElem "book-search" searching.bookSearch]

def limitsElem (limits : CapsLimits) : Elem :=
  leafOf "limits" (nonzeroAttribute "max" limits.max ++
    nonzeroAttribute "default" limits.default) ""

def capsElem (caps : Caps) : Elem :=
  branchOf "caps" [] [leafOf "server" [("title", .text caps.server.title)] "",
    limitsElem caps.limits, searchingElem caps.searching, categoriesElem caps.categories,
    leafOf "tags" [] caps.tags]

/-- An optional text is left out when it is missing and when it is empty. -/
def optionalElem (name : String) (value : Option String) : List Elem :=
  ((value.filter fun value => !value.isEmpty).map (leafOf name [])).toList

def enclosureElem (enclosure : Enclosure) : Elem :=
  leafOf "enclosure" [("url", .text enclosure.url), ("length", .text enclosure.length),
    ("type", .text enclosure.type)] ""

def torznabAttrElem (attr : TorznabAttr) : Elem :=
  leafOf "torznab:attr" [("name", .text attr.name), ("value", .text attr.value)] ""

def itemElem (item : Item) : Elem :=
  branchOf "item" [] ([leafOf "title" [] item.title] ++ optionalElem "guid" item.guid ++
    [leafOf "pubDate" [] item.pubDate.format] ++ optionalElem "category" item.category ++
    optionalElem "link" item.link ++ [leafOf "size" [] (toString item.size.toNat)] ++
    optionalElem "description" item.description ++ optionalElem "comments" item.comments ++
    [enclosureElem item.enclosure] ++ item.torznabAttrs.map torznabAttrElem)

def responseElem (response : Response) : Elem :=
  leafOf "response" (("xmlns", .text newznabNamespace) ::
    (nonzeroAttribute "offset" response.offset ++ nonzeroAttribute "total" response.total)) ""

def channelElem (channel : Channel) : Elem :=
  branchOf "channel" [] (optionalElem "title" channel.title ++ optionalElem "link" channel.link ++
    optionalElem "description" channel.description ++ optionalElem "language" channel.language ++
    [leafOf "pubDate" [] channel.pubDate.format] ++
    [leafOf "lastBuildDate" [] channel.lastBuildDate.format] ++
    optionalElem "docs" channel.docs ++ optionalElem "generator" channel.generator ++
    [responseElem channel.response] ++ channel.items.map itemElem)

def rssElem (result : SearchResult) : Elem :=
  branchOf "rss" [("version", .text "2.0"), ("xmlns:atom", .text atomNamespace),
    ("xmlns:torznab", .text torznabNamespace)] [channelElem result.channel]

def errorElem (error : TorznabError) : Elem :=
  leafOf "error" [("error", .i32 error.code), ("description", .text error.description)] ""

/-! ## Rendering draws the tree -/

section

variable (writer : XmlWriter)

open XmlWriter Fallible

lemma renderCapsSearch_eq (name : String) (search : CapsSearch) :
    renderCapsSearch writer name search = .ok (writer.draw [capsSearchElem name search]) :=
  expanded_eq _ _ _

lemma renderSubcategory_eq (subcategory : Subcategory) :
    renderSubcategory writer subcategory = .ok (writer.draw [subcategoryElem subcategory]) :=
  expanded_eq _ _ _

lemma renderCategory_eq (category : Category) :
    renderCategory writer category = .ok (writer.draw [categoryElem category]) := by
  unfold renderCategory categoryElem
  dsimp only
  split
  · exact expanded_eq _ _ _
  · rw [start_eq, ok_bind, foldlM_draw _ renderSubcategory_eq, ok_bind, endElement_eq]

lemma renderCategories_eq (categories : List Category) :
    renderCategories writer categories = .ok (writer.draw [categoriesElem categories]) := by
  unfold renderCategories categoriesElem
  split
  · exact expanded_eq _ _ _
  · rw [start_eq, ok_bind, foldlM_draw _ renderCategory_eq, ok_bind, endElement_eq]

lemma renderCaps_eq (caps : Caps) :
    renderCaps caps = .ok (new.append ((capsElem caps).layout escape 0)).finish := by
  obtain ⟨inside, hstart, hend⟩ := root_eq "caps" []
    [leafOf "server" [("title", .text caps.server.title)] "", limitsElem caps.limits,
      searchingElem caps.searching, categoriesElem caps.categories, leafOf "tags" [] caps.tags]
  simp only [renderCaps, hstart, ok_bind, expanded_eq, start_eq, renderCapsSearch_eq, draw_draw,
    List.cons_append, List.nil_append, endElement_eq, renderCategories_eq, text_eq]
  rw [limitsElem, searchingElem] at hend
  rw [hend, ok_bind]
  rfl

lemma renderOptionalText_eq (name : String) (value : Option String) :
    renderOptionalText writer name value = .ok (writer.draw (optionalElem name value)) := by
  unfold renderOptionalText optionalElem
  split
  · rename_i value hvalue
    rw [hvalue]
    exact text_eq _ _ _
  · rename_i hvalue
    rw [hvalue]
    simp [draw, append, Elem.layoutAll]

lemma renderTorznabAttr_eq (attr : TorznabAttr) :
    renderTorznabAttr writer attr = .ok (writer.draw [torznabAttrElem attr]) :=
  expanded_eq _ _ _

lemma renderItem_eq (item : Item) : renderItem writer item = .ok (writer.draw [itemElem item]) := by
  simp only [renderItem, start_eq, ok_bind, text_eq, renderOptionalText_eq, display_eq, expanded_eq,
    foldlM_draw _ renderTorznabAttr_eq, draw_draw, endElement_eq]
  simp only [itemElem, enclosureElem, List.append_assoc]

lemma renderChannel_eq (channel : Channel) :
    renderChannel writer channel = .ok (writer.draw [channelElem channel]) := by
  simp only [renderChannel, start_eq, ok_bind, text_eq, renderOptionalText_eq, expanded_eq,
    foldlM_draw _ renderItem_eq, draw_draw, endElement_eq]
  simp only [channelElem, responseElem, List.append_assoc]

lemma renderSearchResult_eq (result : SearchResult) :
    renderSearchResult result = .ok (new.append ((rssElem result).layout escape 0)).finish := by
  obtain ⟨inside, hstart, hend⟩ := root_eq "rss" [("version", .text "2.0"),
    ("xmlns:atom", .text atomNamespace), ("xmlns:torznab", .text torznabNamespace)]
    [channelElem result.channel]
  rw [renderSearchResult, hstart, ok_bind, renderChannel_eq, ok_bind, hend, ok_bind]
  rfl

lemma renderError_eq (error : TorznabError) :
    renderError error = .ok (new.append ((errorElem error).layout escape 0)).finish := by
  simp only [renderError, rootExpanded, writeStartTag_eq, ok_bind]
  change Except.ok _ = _
  rw [writeEndTag_eq, append_append, errorElem, leafOf, Elem.layout]
  simp [escaped]

end

/-! ## Validity -/

instance (name : List Char) : Decidable (IsName name) := inferInstanceAs (Decidable (_ ∧ _))

lemma tag_of (hname : IsName name.toList)
    (hattrs : ∀ attr ∈ attributes, IsName attr.1.toList ∧ Legal attr.2.toText.toList)
    (hnodup : (attributes.map Prod.fst).Nodup) : Tag name.toList (attributes.map attrOf) where
  isName := hname
  legal := by
    intro attr hattr
    obtain ⟨source, hsource, rfl⟩ := List.mem_map.mp hattr
    exact hattrs source hsource
  nodup := by
    have hmap : (attributes.map attrOf).map Prod.fst = (attributes.map Prod.fst).map String.toList := by
      simp [attrOf]
    rw [hmap]
    exact hnodup.map fun a b h => String.toList_inj.mp h

lemma tag_plain (hname : IsName name.toList) : Tag name.toList (([] : List Attribute).map attrOf) :=
  tag_of hname (by simp) (by simp)

lemma legal_empty : Legal "".toList := by
  intro c hc
  cases hc

lemma valid_leafOf {text : String} (htag : Tag name.toList (attributes.map attrOf))
    (htext : Legal text.toList) : (leafOf name attributes text).Valid := by
  rw [leafOf, Elem.Valid]
  exact ⟨htag, htext⟩

/-- An element without text. -/
lemma valid_empty (htag : Tag name.toList (attributes.map attrOf)) :
    (leafOf name attributes "").Valid :=
  valid_leafOf htag legal_empty

lemma valid_text {value : String} (hname : IsName name.toList) (hvalue : Legal value.toList) : ∀ e ∈ [leafOf name [] value], e.Valid :=
  List.forall_mem_singleton.mpr (valid_leafOf (tag_plain hname) hvalue)

lemma valid_branchOf {es : List Elem} (htag : Tag name.toList (attributes.map attrOf))
    (hne : es ≠ []) (hes : ∀ e ∈ es, e.Valid) : (branchOf name attributes es).Valid := by
  rw [branchOf, Elem.Valid]
  exact ⟨htag, hne, Elem.allValid_iff.mpr hes⟩

lemma legal_i32 (value : Int32) : Legal (AttributeValue.i32 value).toText.toList :=
  legal_of_numeric (isNumeric_toString _)

lemma legal_u32 (value : UInt32) : Legal (AttributeValue.u32 value).toText.toList :=
  legal_of_numeric (isNumeric_repr _)

lemma RssDate.legal (date : RssDate) : Legal date.format.toList :=
  fun c hc => isChar_of_printable (date.printable c hc)

/-! ## Responses with legal strings -/

def CapsSearch.strings (search : CapsSearch) : List String :=
  [search.available, search.supportedParams]

def CapsSearching.strings (searching : CapsSearching) : List String :=
  searching.search.strings ++ searching.tvSearch.strings ++ searching.movieSearch.strings ++
    searching.musicSearch.strings ++ searching.audioSearch.strings ++ searching.bookSearch.strings

def Category.strings (category : Category) : List String :=
  category.name :: category.subcat.map (·.name)

def Caps.strings (caps : Caps) : List String :=
  caps.server.title :: caps.tags :: caps.searching.strings ++
    caps.categories.flatMap Category.strings

def Item.strings (item : Item) : List String :=
  item.title :: item.guid.toList ++ item.category.toList ++ item.link.toList ++
    item.description.toList ++ item.comments.toList ++
    [item.enclosure.url, item.enclosure.length, item.enclosure.type] ++
    item.torznabAttrs.flatMap fun attr => [attr.name, attr.value]

def Channel.strings (channel : Channel) : List String :=
  channel.title.toList ++ channel.link.toList ++ channel.description.toList ++
    channel.language.toList ++ channel.docs.toList ++ channel.generator.toList ++
    channel.items.flatMap Item.strings

/-- Only characters that a document may have. -/
def AllLegal (strings : List String) : Prop := ∀ s ∈ strings, Legal s.toList

lemma AllLegal.mono {as bs : List String} (h : AllLegal bs) (hsub : as ⊆ bs) : AllLegal as :=
  fun s hs => h s (hsub hs)

lemma valid_nonzero {a b : String} (m n : UInt32) (ha : IsName a.toList) (hb : IsName b.toList) :
    ∀ attr ∈ nonzeroAttribute a m ++ nonzeroAttribute b n,
      IsName attr.1.toList ∧ Legal attr.2.toText.toList := by
  unfold nonzeroAttribute
  split <;> split <;> simp [ha, hb, legal_u32]

lemma nodup_nonzero {a b : String} (m n : UInt32) (hne : a ≠ b) :
    ((nonzeroAttribute a m ++ nonzeroAttribute b n).map Prod.fst).Nodup := by
  unfold nonzeroAttribute
  split <;> split <;> simp [hne]

lemma valid_capsSearchElem (hname : IsName name.toList) {search : CapsSearch}
    (h : AllLegal search.strings) : (capsSearchElem name search).Valid := by
  have havailable : Legal search.available.toList := h _ (by simp [CapsSearch.strings])
  have hparams : Legal search.supportedParams.toList := h _ (by simp [CapsSearch.strings])
  refine valid_empty (tag_of hname ?_ ?_)
  · split
    · simpa [AttributeValue.toText] using ⟨by decide, havailable⟩
    · simpa [AttributeValue.toText] using ⟨⟨by decide, havailable⟩, by decide, hparams⟩
  · split <;> simp

lemma valid_subcategoryElem {subcategory : Subcategory} (h : Legal subcategory.name.toList) :
    (subcategoryElem subcategory).Valid := by
  refine valid_empty (tag_of (by decide) ?_ (by simp))
  simpa using ⟨⟨by decide, legal_i32 _⟩, by decide, h⟩

lemma valid_categoryElem {category : Category} (h : AllLegal category.strings) :
    (categoryElem category).Valid := by
  have hname : Legal category.name.toList := h _ (by simp [Category.strings])
  have htag : Tag "category".toList
      ([("id", .i32 category.id), ("name", .text category.name)].map attrOf) := by
    refine tag_of (by decide) ?_ (by simp)
    simpa using ⟨⟨by decide, legal_i32 _⟩, by decide, hname⟩
  unfold categoryElem
  dsimp only
  split
  · exact valid_empty htag
  · rename_i hsub
    refine valid_branchOf htag (by simpa using hsub) ?_
    exact List.forall_mem_map.mpr fun subcategory hmem =>
      valid_subcategoryElem (h _ (List.mem_cons_of_mem _ (List.mem_map_of_mem hmem)))

lemma valid_categoriesElem {categories : List Category}
    (h : AllLegal (categories.flatMap Category.strings)) : (categoriesElem categories).Valid := by
  unfold categoriesElem
  split
  · exact valid_empty (tag_plain (by decide))
  · rename_i hne
    refine valid_branchOf (tag_plain (by decide)) (by simpa using hne) ?_
    exact List.forall_mem_map.mpr fun category hmem =>
      valid_categoryElem (h.mono fun s hs => List.mem_flatMap.mpr ⟨category, hmem, hs⟩)

lemma valid_searchingElem {searching : CapsSearching} (h : AllLegal searching.strings) :
    (searchingElem searching).Valid := by
  refine valid_branchOf (tag_plain (by decide)) (by simp) ?_
  have hsub : ∀ strings : List String, strings ⊆ searching.strings → AllLegal strings :=
    fun _ => h.mono
  simp only [List.forall_mem_cons, List.not_mem_nil, false_imp_iff, implies_true, and_true]
  refine ⟨?_, ?_, ?_, ?_, ?_, ?_⟩
  all_goals
    refine valid_capsSearchElem (by decide) (hsub _ ?_)
    intro s hs
    simp [CapsSearching.strings, hs]

lemma valid_limitsElem (limits : CapsLimits) : (limitsElem limits).Valid :=
  valid_empty (tag_of (by decide) (valid_nonzero _ _ (by decide) (by decide))
    (nodup_nonzero _ _ (by decide)))

lemma valid_capsElem {caps : Caps} (h : AllLegal caps.strings) : (capsElem caps).Valid := by
  have htitle : Legal caps.server.title.toList := h _ (by simp [Caps.strings])
  have htags : Legal caps.tags.toList := h _ (by simp [Caps.strings])
  have hsearching : AllLegal caps.searching.strings :=
    h.mono fun s hs => by simp [Caps.strings, hs]
  have hcategories : AllLegal (caps.categories.flatMap Category.strings) :=
    h.mono fun s hs => List.mem_append_right _ hs
  have hserver : Tag "server".toList ([("title", .text caps.server.title)].map attrOf) :=
    tag_of (by decide) (by simpa using ⟨by decide, htitle⟩) (by simp)
  refine valid_branchOf (tag_plain (by decide)) (by simp) ?_
  simp only [List.forall_mem_cons, List.not_mem_nil, false_imp_iff, implies_true, and_true]
  exact ⟨valid_empty hserver, valid_limitsElem _, valid_searchingElem hsearching,
    valid_categoriesElem hcategories, valid_leafOf (tag_plain (by decide)) htags⟩

lemma valid_optionalElem {value : Option String} {strings : List String}
    (hname : IsName name.toList) (h : AllLegal strings) (hsub : value.toList ⊆ strings) :
    ∀ e ∈ optionalElem name value, e.Valid := by
  intro e he
  rw [optionalElem, Option.mem_toList] at he
  obtain ⟨text, hfilter, rfl⟩ := Option.map_eq_some_iff.mp he
  have hvalue := (Option.filter_eq_some_iff.mp hfilter).1
  exact valid_leafOf (tag_plain hname) (h text (hsub (by simp [hvalue])))

lemma valid_enclosureElem {enclosure : Enclosure}
    (h : AllLegal [enclosure.url, enclosure.length, enclosure.type]) :
    (enclosureElem enclosure).Valid := by
  refine valid_empty (tag_of (by decide) ?_ (by simp))
  simpa using ⟨⟨by decide, h _ (by simp)⟩, ⟨by decide, h _ (by simp)⟩, by decide, h _ (by simp)⟩

lemma valid_torznabAttrElem {attr : TorznabAttr} (h : AllLegal [attr.name, attr.value]) :
    (torznabAttrElem attr).Valid := by
  refine valid_empty (tag_of (by decide) ?_ (by simp))
  simpa using ⟨⟨by decide, h _ (by simp)⟩, by decide, h _ (by simp)⟩

lemma valid_itemElem {item : Item} (h : AllLegal item.strings) : (itemElem item).Valid := by
  refine valid_branchOf (tag_plain (by decide)) (by simp) ?_
  simp only [List.forall_mem_append]
  refine ⟨⟨⟨⟨⟨⟨⟨⟨⟨?_, ?_⟩, ?_⟩, ?_⟩, ?_⟩, ?_⟩, ?_⟩, ?_⟩, ?_⟩, ?_⟩
  · exact valid_text (by decide) (h _ (by simp [Item.strings]))
  · exact valid_optionalElem (by decide) h fun s hs => by simp_all [Item.strings]
  · exact valid_text (by decide) item.pubDate.legal
  · exact valid_optionalElem (by decide) h fun s hs => by simp_all [Item.strings]
  · exact valid_optionalElem (by decide) h fun s hs => by simp_all [Item.strings]
  · exact valid_text (by decide) (legal_of_numeric (isNumeric_repr _))
  · exact valid_optionalElem (by decide) h fun s hs => by simp_all [Item.strings]
  · exact valid_optionalElem (by decide) h fun s hs => by simp_all [Item.strings]
  · refine List.forall_mem_singleton.mpr (valid_enclosureElem (h.mono fun s hs => ?_))
    simp only [Item.strings, List.mem_append]
    exact .inl (.inr hs)
  · refine List.forall_mem_map.mpr fun attr hmem => valid_torznabAttrElem (h.mono fun s hs => ?_)
    exact List.mem_append_right _ (List.mem_flatMap.mpr ⟨attr, hmem, hs⟩)

lemma valid_responseElem (response : Response) : (responseElem response).Valid := by
  refine valid_empty (tag_of (by decide)
    (List.forall_mem_cons.mpr ⟨?_, valid_nonzero _ _ (by decide) (by decide)⟩) ?_)
  · exact ⟨by decide, List.all_iff_forall_prop.mp (by decide)⟩
  · unfold nonzeroAttribute
    split <;> split <;> simp

lemma valid_channelElem {channel : Channel} (h : AllLegal channel.strings) :
    (channelElem channel).Valid := by
  refine valid_branchOf (tag_plain (by decide)) (by simp) ?_
  simp only [List.forall_mem_append]
  refine ⟨⟨⟨⟨⟨⟨⟨⟨⟨?_, ?_⟩, ?_⟩, ?_⟩, ?_⟩, ?_⟩, ?_⟩, ?_⟩, ?_⟩, ?_⟩
  · exact valid_optionalElem (by decide) h fun s hs => by simp_all [Channel.strings]
  · exact valid_optionalElem (by decide) h fun s hs => by simp_all [Channel.strings]
  · exact valid_optionalElem (by decide) h fun s hs => by simp_all [Channel.strings]
  · exact valid_optionalElem (by decide) h fun s hs => by simp_all [Channel.strings]
  · exact valid_text (by decide) channel.pubDate.legal
  · exact valid_text (by decide) channel.lastBuildDate.legal
  · exact valid_optionalElem (by decide) h fun s hs => by simp_all [Channel.strings]
  · exact valid_optionalElem (by decide) h fun s hs => by simp_all [Channel.strings]
  · exact List.forall_mem_singleton.mpr (valid_responseElem _)
  · exact List.forall_mem_map.mpr fun item hmem => valid_itemElem (h.mono fun s hs =>
      List.mem_append_right _ (List.mem_flatMap.mpr ⟨item, hmem, hs⟩))

lemma valid_rssElem {result : SearchResult} (h : AllLegal result.channel.strings) :
    (rssElem result).Valid := by
  refine valid_branchOf (tag_of (by decide) ?_ (by decide)) (by simp)
    (List.forall_mem_singleton.mpr (valid_channelElem h))
  simp only [List.forall_mem_cons, List.not_mem_nil, false_imp_iff, implies_true, and_true]
  exact ⟨⟨by decide, List.all_iff_forall_prop.mp (by decide)⟩,
    ⟨by decide, List.all_iff_forall_prop.mp (by decide)⟩,
    by decide, List.all_iff_forall_prop.mp (by decide)⟩

lemma valid_errorElem {error : TorznabError} (h : AllLegal [error.description]) :
    (errorElem error).Valid := by
  refine valid_empty (tag_of (by decide) ?_ (by simp))
  simpa using ⟨⟨by decide, legal_i32 _⟩, by decide, h _ (by simp)⟩

/-! ## Documents -/

/-- A response that has `to_xml`. -/
inductive Document
  | caps (capabilities : Caps)
  | searchResult (result : SearchResult)
  | error (failure : TorznabError)

namespace Document

def toXml : Document → Except XmlError ByteArray
  | .caps capabilities => renderCaps capabilities
  | .searchResult result => renderSearchResult result
  | .error failure => renderError failure

/-- The strings of a response. -/
def strings : Document → List String
  | .caps capabilities => capabilities.strings
  | .searchResult result => result.channel.strings
  | .error failure => [failure.description]

/-- The elements, attributes and texts that a response stands for. -/
def tree : Document → Elem
  | .caps capabilities => capsElem capabilities
  | .searchResult result => rssElem result
  | .error failure => errorElem failure

def text (document : Document) : String :=
  xmlHeader ++ String.ofList (document.tree.layout escape 0)

/-- Rendering always succeeds, and it writes the layout of the tree. -/
lemma toXml_eq (document : Document) : document.toXml = .ok document.text.toUTF8 := by
  cases document with
  | caps capabilities => exact renderCaps_eq capabilities
  | searchResult result => exact renderSearchResult_eq result
  | error failure => exact renderError_eq failure

lemma valid_tree {document : Document} (h : AllLegal document.strings) :
    document.tree.Valid := by
  cases document with
  | caps capabilities => exact valid_capsElem h
  | searchResult result => exact valid_rssElem h
  | error failure => exact valid_errorElem h

end Document

/-- The tree that a reader makes of bytes, if they are a well-formed document. -/
def parse (bytes : ByteArray) : Option Node :=
  (String.fromUTF8? bytes).bind fun text => (readDocument text.toList).map Node.significant

lemma fromUTF8_toUTF8 (s : String) : String.fromUTF8? s.toUTF8 = some s := by
  rw [String.fromUTF8?, String.toUTF8_eq_toByteArray, dif_pos s.isValidUTF8]
  rfl

lemma xmlHeader_toList : xmlHeader.toList = declaration ++ ['\n'] := by
  decide +kernel

end Bitmagnet.Torznab
