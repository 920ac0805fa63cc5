import Bitmagnet.Library.Xml

/-!
# What is written is read back

For every escaping that the reader undoes, `readDocument` reads the layout of a valid document, and
without the white space between its elements the tree is the one that was written.

The reader has fuel, of which two units for each character are enough: a call for an element and one
for content take one each, and between two of a kind at least one character is read.
-/

namespace Xml

/-- An escaping that the reader undoes and that hides what ends text and values. -/
structure Escaping (escape : Char → List Char) : Prop where
  decodes : ∀ (quoted : Bool) (c : Char) (rest : List Char), isChar c = true →
    decode quoted none (escape c ++ rest) = (decode quoted none rest).map (c :: ·)
  hides : ∀ c, isChar c = true → ∀ d ∈ escape c, d ≠ '<' ∧ d ≠ '>' ∧ d ≠ '"'

variable {escape : Char → List Char} {name text rest : List Char} {attrs : List Attr}

/-! ## Text and values -/

variable {value : List Char}

lemma Escaping.decode_escaped (h : Escaping escape) (quoted : Bool) (hvalue : Legal value) :
    decode quoted none (escaped escape value) = some value := by
  induction value with
  | nil => rfl
  | cons c value ih =>
    rw [escaped, List.flatMap_cons, h.decodes quoted c _ (hvalue c (by simp))]
    have := ih fun d hd => hvalue d (List.mem_cons_of_mem _ hd)
    rw [escaped] at this
    rw [this]
    rfl

lemma Escaping.hides_escaped (h : Escaping escape) (hvalue : Legal value) :
    ∀ d ∈ escaped escape value, d ≠ '<' ∧ d ≠ '>' ∧ d ≠ '"' := by
  intro d hd
  obtain ⟨c, hc, hd⟩ := List.mem_flatMap.mp hd
  exact h.hides c (hvalue c hc) d hd

lemma Escaping.escaped_ne_nil (h : Escaping escape) (hvalue : Legal value) (hne : value ≠ []) :
    escaped escape value ≠ [] := by
  intro hnil
  have hdecode := h.decode_escaped false hvalue
  rw [hnil] at hdecode
  exact hne (Option.some.inj hdecode).symm

lemma hasSectionEnd_eq_false (h : '>' ∉ text) : hasSectionEnd text = false := by
  induction text with
  | nil => rfl
  | cons c text ih =>
    rw [hasSectionEnd, ih (fun hmem => h (List.mem_cons_of_mem _ hmem)), Bool.or_false]
    refine Bool.eq_false_iff.mpr fun hstarts => h ?_
    have hsub : "]]>".toList ⊆ c :: text :=
      List.IsPrefix.subset <| List.isPrefixOf_iff_prefix.mp hstarts
    exact hsub (by decide)

lemma Escaping.charData_escaped (h : Escaping escape) (hvalue : Legal value) :
    charData (escaped escape value) = some value := by
  have hend : hasSectionEnd (escaped escape value) = false :=
    hasSectionEnd_eq_false fun hmem => (h.hides_escaped hvalue _ hmem).2.1 rfl
  rw [charData, hend, if_neg (by decide), h.decode_escaped false hvalue]

/-- White space is read as it is. -/
lemma charData_indent (depth : Nat) : charData (indent depth) = some (indent depth) := by
  have hend : hasSectionEnd (indent depth) = false :=
    hasSectionEnd_eq_false fun hmem => by simp [indent] at hmem
  have hspaces : ∀ n, decode false none (List.replicate n ' ') = some (List.replicate n ' ') := by
    intro n
    induction n with
    | zero => rfl
    | succ n ih =>
      rw [List.replicate_succ, decode, if_neg (by decide), if_pos (by decide), ih]
      rfl
  rw [charData, hend, if_neg (by decide), indent, decode, if_neg (by decide), if_pos (by decide),
    hspaces]
  rfl

/-- A run of characters up to one that stops it. -/
lemma takeWhile_stop {p : Char → Bool} {a : List Char} (ha : ∀ c ∈ a, p c = true)
    (rest : List Char) (hrest : ∀ c ∈ rest.head?, p c = false) :
    (a ++ rest).takeWhile p = a ∧ (a ++ rest).dropWhile p = rest := by
  rw [List.takeWhile_append_of_pos ha, List.dropWhile_append_of_pos ha]
  cases rest with
  | nil => simp
  | cons c rest =>
    have hc := hrest c rfl
    simp [hc]

/-! ## Tags -/

lemma readName_append (hname : IsName name) (hrest : ∀ c ∈ rest.head?, isNameChar c = false) :
    readName (name ++ rest) = some (name, rest) := by
  obtain ⟨hstart, hall⟩ := hname
  obtain ⟨htake, hdrop⟩ := takeWhile_stop (List.all_eq_true.mp hall) rest hrest
  cases name with
  | nil => simp at hstart
  | cons c name =>
    rw [readName, if_pos (by simpa using hstart), htake, hdrop]

lemma IsName.head (h : IsName name) : ∃ c cs, name = c :: cs ∧ isNameStart c = true := by
  cases name with
  | nil => exact absurd h.1 (by simp)
  | cons c cs => exact ⟨c, cs, rfl, by simpa using h.1⟩

/-- What a name does not start with. -/
lemma not_space_of_nameStart {c : Char} (h : isNameStart c = true) :
    isSpace c = false ∧ c ≠ '>' ∧ c ≠ '/' := by
  refine ⟨Bool.eq_false_iff.mpr fun hspace => ?_, ?_, ?_⟩
  · simp only [isSpace, Bool.or_eq_true, decide_eq_true_eq] at hspace
    rcases hspace with ((rfl | rfl) | rfl) | rfl <;> exact absurd h (by decide)
  · rintro rfl
    exact absurd h (by decide)
  · rintro rfl
    exact absurd h (by decide)

lemma Escaping.readAttr_text (h : Escaping escape) {attr : Attr} (hname : IsName attr.1)
    (hvalue : Legal attr.2) (rest : List Char) :
    readAttr (attr.1 ++ ['=', '"'] ++ escaped escape attr.2 ++ ['"'] ++ rest) =
      some (attr, rest) := by
  have hsplit : attr.1 ++ ['=', '"'] ++ escaped escape attr.2 ++ ['"'] ++ rest =
      attr.1 ++ '=' :: '"' :: (escaped escape attr.2 ++ '"' :: rest) := by simp
  have hquote : ∀ c ∈ escaped escape attr.2, decide (c ≠ '"') = true := fun c hc => by
    simpa using (h.hides_escaped hvalue c hc).2.2
  obtain ⟨htake, hdrop⟩ := takeWhile_stop hquote ('"' :: rest) (by simp)
  have hread : readValue ('"' :: (escaped escape attr.2 ++ '"' :: rest)) = some (attr.2, rest) := by
    rw [readValue, if_pos (by decide), htake, hdrop, h.decode_escaped true hvalue]
    rfl
  have hequals : ('=' :: '"' :: (escaped escape attr.2 ++ '"' :: rest)).dropWhile isSpace =
      '=' :: '"' :: (escaped escape attr.2 ++ '"' :: rest) := rfl
  have hvalueStart : ('"' :: (escaped escape attr.2 ++ '"' :: rest)).dropWhile isSpace =
      '"' :: (escaped escape attr.2 ++ '"' :: rest) := rfl
  rw [hsplit, readAttr, readName_append hname (by simp [isNameChar, isNameStart])]
  simp only [Option.bind_some, hequals, if_true, hvalueStart, hread, Option.map_some]

lemma Escaping.readAttrs_text (h : Escaping escape)
    (hattrs : ∀ attr ∈ attrs, IsName attr.1 ∧ Legal attr.2) (rest : List Char) :
    ∀ fuel, attrs.length < fuel →
      readAttrs fuel (attrs.flatMap (attrText escape) ++ '>' :: rest) =
        some (attrs, false, rest) := by
  induction attrs with
  | nil =>
    intro fuel hfuel
    cases fuel with
    | zero => exact absurd hfuel (Nat.not_lt_zero _)
    | succ fuel => rfl
  | cons attr attrs ih =>
    intro fuel hfuel
    cases fuel with
    | zero => exact absurd hfuel (Nat.not_lt_zero _)
    | succ fuel =>
      obtain ⟨⟨hname, hvalue⟩, hrest⟩ := List.forall_mem_cons.mp hattrs
      have hlater := ih hrest fuel (Nat.lt_of_succ_lt_succ hfuel)
      obtain ⟨c, cs, hc, hstart⟩ := hname.head
      obtain ⟨hspace, hclose, hslash⟩ := not_space_of_nameStart hstart
      -- Behind its space the attribute starts with a name, so no other rule applies.
      have hinput : (attr :: attrs).flatMap (attrText escape) ++ '>' :: rest =
          ' ' :: (attr.1 ++ ['=', '"'] ++ escaped escape attr.2 ++ ['"'] ++
            (attrs.flatMap (attrText escape) ++ '>' :: rest)) := by
        simp [attrText]
      have hread := h.readAttr_text hname hvalue (attrs.flatMap (attrText escape) ++ '>' :: rest)
      rw [hinput]
      generalize hbody : attr.1 ++ ['=', '"'] ++ escaped escape attr.2 ++ ['"'] ++
        (attrs.flatMap (attrText escape) ++ '>' :: rest) = body at hread ⊢
      have hhead : ∃ later, body = c :: later := ⟨_, by rw [← hbody, hc]; rfl⟩
      obtain ⟨later, rfl⟩ := hhead
      have hdrop : (' ' :: c :: later).dropWhile isSpace = c :: later := by
        simp [List.dropWhile, hspace, show isSpace ' ' = true from rfl]
      have hfirst : (c :: later).take 1 ≠ ['>'] := by simpa using hclose
      have hsecond : (c :: later).take 2 ≠ ['/', '>'] := by
        cases later <;> simp [hslash]
      rw [readAttrs, hdrop, if_neg hfirst, if_neg hsecond, if_pos (by rfl), hread]
      simp [hlater]

lemma Escaping.readStart_tag (h : Escaping escape) (htag : Tag name attrs) (rest : List Char) :
    readStart (startTag escape name attrs ++ rest) = some (name, attrs, false, rest) := by
  have hinput : startTag escape name attrs ++ rest =
      '<' :: (name ++ (attrs.flatMap (attrText escape) ++ '>' :: rest)) := by
    simp [startTag]
  have hstop : ∀ c ∈ (attrs.flatMap (attrText escape) ++ '>' :: rest).head?,
      isNameChar c = false := by
    intro c hc
    cases attrs with
    | nil =>
      obtain rfl : '>' = c := by simpa using hc
      rfl
    | cons attr attrs =>
      obtain rfl : ' ' = c := by simpa [attrText] using hc
      rfl
  have hfuel : attrs.length < (attrs.flatMap (attrText escape) ++ '>' :: rest).length + 1 := by
    have hlength : attrs.length ≤ (attrs.flatMap (attrText escape)).length := by
      clear hstop hinput htag
      induction attrs with
      | nil => exact Nat.zero_le _
      | cons attr attrs ih =>
        rw [List.flatMap_cons, List.length_append, List.length_cons, attrText]
        simp only [List.cons_append, List.length_cons, List.append_assoc]
        omega
    rw [List.length_append]
    omega
  rw [hinput, readStart, if_pos (by rfl), List.drop_one, List.tail_cons,
    readName_append htag.isName hstop, Option.bind_some]
  dsimp only
  rw [h.readAttrs_text htag.legal rest _ hfuel, Option.bind_some]
  exact if_pos htag.nodup

lemma readEnd_tag (name rest : List Char) : readEnd name (endTag name ++ rest) = some rest := by
  have hinput : endTag name ++ rest = (['<', '/'] ++ name) ++ '>' :: rest := by simp [endTag]
  have hstarts : (['<', '/'] ++ name).isPrefixOf ((['<', '/'] ++ name) ++ '>' :: rest) = true :=
    List.isPrefixOf_iff_prefix.mpr (List.prefix_append _ _)
  have hdrop : ((['<', '/'] ++ name) ++ '>' :: rest).drop (name.length + 2) = '>' :: rest := by
    rw [show name.length + 2 = (['<', '/'] ++ name).length from by simp, List.drop_left]
  rw [hinput, readEnd, if_pos hstarts, hdrop]
  rfl

/-! ## Content -/

lemma readNodes_end (fuel : Nat) (name rest : List Char) :
    readNodes (fuel + 1) (endTag name ++ rest) = some ([], endTag name ++ rest) := by
  rw [readNodes, if_pos (by simp [endTag])]

/-- Text in front of a tag. -/
lemma readNodes_text {raw : List Char} (hne : raw ≠ []) (hraw : '<' ∉ raw)
    (hvalue : charData raw = some value) (fuel : Nat) (later : List Char) :
    readNodes (fuel + 1) (raw ++ '<' :: later) =
      (readNodes fuel ('<' :: later)).map fun r => (.text value :: r.1, r.2) := by
  have hstop : ∀ c ∈ raw, decide (c ≠ '<') = true := by
    intro c hc
    simpa using fun h : c = '<' => hraw (h ▸ hc)
  obtain ⟨htake, hdrop⟩ := takeWhile_stop hstop ('<' :: later) (by simp)
  obtain ⟨c, cs, rfl⟩ := List.exists_cons_of_ne_nil hne
  have hc : c ≠ '<' := fun h => hraw (by simp [h])
  rw [readNodes, if_neg (by cases cs <;> simp [hc]), if_neg (by simp [hc]), if_neg (by simp), htake,
    hdrop, hvalue]
  rfl

lemma lt_not_mem_indent (depth : Nat) : '<' ∉ indent depth := by
  simp [indent]

/-- A tag starts with its bracket and its name. -/
lemma startTag_head (hname : IsName name) (rest : List Char) :
    ∃ c later, startTag escape name attrs ++ rest = '<' :: c :: later ∧ c ≠ '/' := by
  obtain ⟨c, cs, rfl, hstart⟩ := hname.head
  exact ⟨c, _, rfl, (not_space_of_nameStart hstart).2.2⟩

lemma Elem.layout_head (escape : Char → List Char) {e : Elem} (he : e.Valid) (depth : Nat)
    (rest : List Char) :
    ∃ c later, e.layout escape depth ++ rest = '<' :: c :: later ∧ c ≠ '/' := by
  cases e with
  | leaf name attrs text =>
    rw [Elem.Valid] at he
    rw [Elem.layout, List.append_assoc, List.append_assoc]
    exact startTag_head he.1.isName _
  | branch name attrs children =>
    rw [Elem.Valid] at he
    rw [Elem.layout, List.append_assoc, List.append_assoc, List.append_assoc]
    exact startTag_head he.1.isName _

lemma Elem.allValid_iff {es : List Elem} : Elem.AllValid es ↔ ∀ e ∈ es, e.Valid := by
  induction es with
  | nil => simp [Elem.AllValid]
  | cons e es ih => simp [Elem.AllValid, ih]

lemma Elem.layoutAll_append (escape : Char → List Char) (depth : Nat) (es fs : List Elem) :
    Elem.layoutAll escape depth (es ++ fs) =
      Elem.layoutAll escape depth es ++ Elem.layoutAll escape depth fs := by
  induction es with
  | nil => rfl
  | cons e es ih => simp [Elem.layoutAll, ih]

/-- An element in content. -/
lemma readNodes_element {fuel : Nat} {input : List Char} {node : Node}
    (hinput : ∃ c later, input = '<' :: c :: later ∧ c ≠ '/')
    (hread : readElement fuel input = some (node, rest)) :
    readNodes (fuel + 1) input = (readNodes fuel rest).map fun r => (node :: r.1, r.2) := by
  obtain ⟨c, later, rfl, hc⟩ := hinput
  rw [readNodes, if_neg (by simp [hc]), if_pos (by rfl), hread]
  rfl

/-- The text of a leaf. -/
lemma Escaping.readNodes_leaf (h : Escaping escape) (htext : Legal text) (fuel : Nat)
    (name rest : List Char) :
    readNodes (fuel + 2) (escaped escape text ++ (endTag name ++ rest)) =
      some (textNodes text, endTag name ++ rest) := by
  by_cases hne : text = []
  · subst hne
    exact readNodes_end (fuel + 1) name rest
  · have hend : endTag name ++ rest = '<' :: ('/' :: name ++ ['>'] ++ rest) := by simp [endTag]
    have hraw : '<' ∉ escaped escape text := fun hmem => (h.hides_escaped htext _ hmem).1 rfl
    rw [hend, readNodes_text (h.escaped_ne_nil htext hne) hraw (h.charData_escaped htext), ← hend,
      readNodes_end, textNodes, if_neg hne]
    rfl

lemma length_startTag (escape : Char → List Char) (name : List Char) (attrs : List Attr) :
    2 ≤ (startTag escape name attrs).length := by
  simp only [startTag, List.length_append, List.length_cons, List.length_nil]
  omega

/-- A line break in front of a tag. -/
lemma readNodes_indent (depth fuel : Nat) (later : List Char) :
    readNodes (fuel + 1) (indent depth ++ '<' :: later) =
      (readNodes fuel ('<' :: later)).map fun r => (.text (indent depth) :: r.1, r.2) :=
  readNodes_text (by simp [indent]) (lt_not_mem_indent depth) (charData_indent depth) fuel later

mutual

/-- **An element is read back from its layout.** -/
lemma Escaping.readElement_layout (h : Escaping escape) : ∀ (e : Elem) (depth : Nat), e.Valid →
    ∀ (rest : List Char) (fuel : Nat), 2 * (e.layout escape depth ++ rest).length < fuel →
      readElement fuel (e.layout escape depth ++ rest) = some (e.node depth, rest)
  | .leaf name attrs text, depth, hvalid, rest, fuel, hfuel => by
    rw [Elem.Valid] at hvalid
    obtain ⟨htag, htext⟩ := hvalid
    have hlength := length_startTag escape name attrs
    rw [Elem.layout, List.append_assoc, List.append_assoc] at hfuel ⊢
    obtain ⟨fuel, rfl⟩ : ∃ k, fuel = k + 3 := Nat.exists_eq_add_of_le' (by
      rw [List.length_append] at hfuel
      omega)
    rw [readElement, h.readStart_tag htag, Option.bind_some]
    dsimp only
    rw [if_neg (by decide), h.readNodes_leaf htext, Option.bind_some, readEnd_tag, Elem.node]
    rfl
  | .branch name attrs children, depth, hvalid, rest, fuel, hfuel => by
    rw [Elem.Valid] at hvalid
    obtain ⟨htag, -, hchildren⟩ := hvalid
    have hlength := length_startTag escape name attrs
    have hinput : (Elem.branch name attrs children).layout escape depth ++ rest =
        startTag escape name attrs ++ (Elem.layoutAll escape (depth + 1) children ++
          indent depth ++ endTag name ++ rest) := by
      simp [Elem.layout]
    rw [hinput] at hfuel ⊢
    obtain ⟨fuel, rfl⟩ : ∃ k, fuel = k + 1 := Nat.exists_eq_add_of_le' (by omega)
    rw [List.length_append] at hfuel
    rw [readElement, h.readStart_tag htag, Option.bind_some]
    dsimp only
    rw [if_neg (by decide), h.readNodes_layoutAll children (depth + 1) depth hchildren name rest
      fuel (by omega), Option.bind_some, readEnd_tag, Elem.node]
    rfl

/-- Elements on their lines, before an end tag. -/
lemma Escaping.readNodes_layoutAll (h : Escaping escape) : ∀ (es : List Elem) (depth outer : Nat),
    Elem.AllValid es → ∀ (name rest : List Char) (fuel : Nat),
      2 * (Elem.layoutAll escape depth es ++ indent outer ++ endTag name ++ rest).length < fuel →
      readNodes fuel (Elem.layoutAll escape depth es ++ indent outer ++ endTag name ++ rest) =
        some (Elem.nodes depth es ++ [.text (indent outer)], endTag name ++ rest)
  | [], depth, outer, _, name, rest, fuel, hfuel => by
    have hinput : Elem.layoutAll escape depth [] ++ indent outer ++ endTag name ++ rest =
        indent outer ++ '<' :: ('/' :: name ++ ['>'] ++ rest) := by
      simp [Elem.layoutAll, endTag]
    rw [hinput] at hfuel ⊢
    obtain ⟨fuel, rfl⟩ : ∃ k, fuel = k + 2 := Nat.exists_eq_add_of_le' (by
      rw [List.length_append, List.length_cons] at hfuel
      omega)
    have hend : endTag name ++ rest = '<' :: ('/' :: name ++ ['>'] ++ rest) := by simp [endTag]
    rw [readNodes_indent, ← hend, readNodes_end]
    rfl
  | e :: es, depth, outer, hvalid, name, rest, fuel, hfuel => by
    rw [Elem.AllValid] at hvalid
    have hinput : Elem.layoutAll escape depth (e :: es) ++ indent outer ++ endTag name ++ rest =
        indent depth ++ (e.layout escape depth ++ (Elem.layoutAll escape depth es ++
          indent outer ++ endTag name ++ rest)) := by
      simp [Elem.layoutAll]
    obtain ⟨c, later, hhead, hc⟩ := Elem.layout_head escape hvalid.1 depth
      (Elem.layoutAll escape depth es ++ indent outer ++ endTag name ++ rest)
    have hindent : 1 ≤ (indent depth).length := by simp [indent]
    rw [hinput, List.length_append] at hfuel
    obtain ⟨fuel, rfl⟩ : ∃ k, fuel = k + 2 := Nat.exists_eq_add_of_le' (by omega)
    have helement := h.readElement_layout e depth hvalid.1 (Elem.layoutAll escape depth es ++
      indent outer ++ endTag name ++ rest) fuel (by omega)
    have helements := h.readNodes_layoutAll es depth outer hvalid.2 name rest fuel (by
      obtain ⟨c, later, hlayout, -⟩ := Elem.layout_head escape hvalid.1 depth []
      rw [List.append_nil] at hlayout
      rw [hlayout, List.length_append, List.length_cons] at hfuel
      omega)
    rw [hinput, hhead, readNodes_indent, ← hhead,
      readNodes_element ⟨c, later, hhead, hc⟩ helement, helements]
    rfl

end

/-! ## Documents -/

/-- **A document is read back.** -/
lemma Escaping.readDocument_layout (h : Escaping escape) {e : Elem} (he : e.Valid) :
    readDocument (declaration ++ '\n' :: e.layout escape 0) = some (e.node 0) := by
  have hstarts : declaration.isPrefixOf (declaration ++ '\n' :: e.layout escape 0) = true :=
    List.isPrefixOf_iff_prefix.mpr (List.prefix_append _ _)
  obtain ⟨c, later, hlayout, -⟩ := Elem.layout_head escape he 0 []
  have hdrop : ('\n' :: e.layout escape 0).dropWhile isSpace = e.layout escape 0 ++ [] := by
    rw [hlayout]
    rw [List.append_nil] at hlayout
    rw [hlayout]
    rfl
  rw [readDocument, if_pos hstarts, List.drop_left]
  dsimp only
  rw [hdrop, h.readElement_layout e 0 he [] _ (Nat.lt_succ_self _)]
  rfl

lemma Node.significantAll_append (among : Bool) (as bs : List Node) :
    Node.significantAll among (as ++ bs) =
      Node.significantAll among as ++ Node.significantAll among bs := by
  induction as with
  | nil => rfl
  | cons a as ih =>
    cases a with
    | element name attrs children =>
      simp [Node.significantAll, ih]
    | text value =>
      rw [List.cons_append, Node.significantAll, Node.significantAll, ih]
      split <;> rfl

lemma indent_isSpace (depth : Nat) : (indent depth).all isSpace = true := by
  simp [indent, isSpace]

lemma significantAll_indent (depth : Nat) (rest : List Node) :
    Node.significantAll true (.text (indent depth) :: rest) = Node.significantAll true rest := by
  rw [Node.significantAll, indent_isSpace]
  rfl

lemma significantAll_element {node : Node} (h : node.isElement = true) (among : Bool)
    (rest : List Node) :
    Node.significantAll among (node :: rest) =
      node.significant :: Node.significantAll among rest := by
  cases node with
  | element name attrs children => simp [Node.significantAll]
  | text value => cases h

lemma Elem.isElement_node (e : Elem) (depth : Nat) : (e.node depth).isElement = true := by
  cases e with
  | leaf name attrs text => rw [Elem.node, Node.isElement]
  | branch name attrs children => rw [Elem.node, Node.isElement]

mutual

/-- Without its white space, the tree that is read is the one that was written. -/
lemma Elem.significant_node : ∀ (e : Elem) (depth : Nat), e.Valid →
    (e.node depth).significant = e.content
  | .leaf name attrs text, depth, _ => by
    rw [Elem.node, Elem.content, Node.significant, textNodes]
    split
    · rfl
    · rfl
  | .branch name attrs children, depth, hvalid => by
    rw [Elem.Valid] at hvalid
    obtain ⟨-, hne, hchildren⟩ := hvalid
    have hany : (Elem.nodes (depth + 1) children ++ [Node.text (indent depth)]).any
        Node.isElement = true := by
      obtain ⟨e, es, rfl⟩ := List.exists_cons_of_ne_nil hne
      simp [Elem.nodes, Elem.isElement_node]
    rw [Elem.node, Elem.content, Node.significant, hany, Node.significantAll_append,
      significantAll_indent, Elem.significantAll_nodes children (depth + 1) hchildren]
    simp [Node.significantAll]

lemma Elem.significantAll_nodes : ∀ (es : List Elem) (depth : Nat), Elem.AllValid es →
    Node.significantAll true (Elem.nodes depth es) = Elem.contents es
  | [], _, _ => rfl
  | e :: es, depth, hvalid => by
    rw [Elem.AllValid] at hvalid
    rw [Elem.nodes, Elem.contents, significantAll_indent,
      significantAll_element (e.isElement_node depth), Elem.significant_node e depth hvalid.1,
      Elem.significantAll_nodes es depth hvalid.2]

end

end Xml
