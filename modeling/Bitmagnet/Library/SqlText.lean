import Mathlib.Data.List.Forall2
import Bitmagnet.Library.SqlGrammar
import Bitmagnet.Library.SqlPlaceholder

/-!
# Texts of conditions

A condition is built as text.  `Piece` is a text together with what it reads as: its tokens are an
operand, its brackets are balanced, and its parameters are numbered within a range.  One lemma for
each format that such texts are made with says how pieces make a piece, so what a generator of SQL
emits is settled format by format, along its own recursion.

A conjunction without brackets is not one operand in every place: behind an `AND` its parts are
read one by one.  `Conjunction` keeps the parts, and conjunctions joined by `AND` are one.
-/

namespace Sql

/-! ## Fixed texts -/

/-- The text is these tokens, the last of which may be pending. -/
def readsAs (text : String) (tokens : List Token) : Bool :=
  !text.toList.contains '$' && tokens.all isFixed && (run .idle text.toList).1.complete &&
    (flush (run .idle text.toList).1).map ((run .idle text.toList).2 ++ ·) = some tokens

/-- The text is these tokens, with none pending. -/
def opensAs (text : String) (tokens : List Token) : Bool :=
  !text.toList.contains '$' && tokens.all isFixed && run .idle text.toList = (.idle, tokens)

/-- A separator: it ends what is before it and is these tokens. -/
def separates (text : String) (tokens : List Token) : Bool :=
  calms text.toList && opensAs text tokens

variable {tokens : List Token} {sep : String} {hi' lo' level' : Nat} {name : List Char}
  {texts : List String}

lemma renders_of_readsAs {text : String} (h : readsAs text tokens = true) :
    Renders text.toList tokens := by
  simp only [readsAs, Bool.and_eq_true, Bool.not_eq_true', decide_eq_true_eq] at h
  obtain ⟨⟨⟨hdollar, hfixed⟩, hcomplete⟩, hflush⟩ := h
  obtain ⟨pending, hpending, rfl⟩ := Option.map_eq_some_iff.mp hflush
  exact (reads_of_run rfl hcomplete hpending).renders (by simpa using hdollar) hfixed

lemma frames_of_opensAs {text : String} (h : opensAs text tokens = true) :
    '$' ∉ text.toList ∧ Frames text.toList tokens := by
  simp only [opensAs, Bool.and_eq_true, Bool.not_eq_true', decide_eq_true_eq] at h
  obtain ⟨⟨hdollar, hfixed⟩, hrun⟩ := h
  have hmem : '$' ∉ text.toList := by simpa using hdollar
  exact ⟨hmem, (opens_of_run hrun).frames hmem hfixed⟩

/-- A separator behind a pending token. -/
lemma Renders.separated {a : List Char} {ta : List Token} (ha : Renders a ta) {tsep : List Token}
    (hsep : separates sep tsep = true) : Frames (a ++ sep.toList) (ta ++ tsep) := by
  obtain ⟨hcalms, hopens⟩ := Bool.and_eq_true_iff.mp hsep
  obtain ⟨hdollar, hframes⟩ := frames_of_opensAs hopens
  exact ha.frames_append hcalms hdollar hframes

/-! ## Brackets and parameters -/

/-- The depth behind the tokens; none when a bracket closes that was not open. -/
def nesting : Nat → List Token → Option Nat
  | depth, [] => some depth
  | depth, t :: ts =>
    if t = openBracket then nesting (depth + 1) ts
    else if t = closeBracket then if depth = 0 then none else nesting (depth - 1) ts
    else nesting depth ts

/-- Every bracket is closed, and none that was open before. -/
def Balanced (tokens : List Token) : Prop := ∀ depth, nesting depth tokens = some depth

/-- Brackets are balanced and the parameters are within a range. -/
structure Sound (lo hi : Nat) (tokens : List Token) : Prop where
  balanced : Balanced tokens
  params : ∀ i, .param i ∈ tokens → lo < i ∧ i ≤ hi

variable {lo hi : Nat} {ta tb : List Token}

lemma nesting_append (ta tb : List Token) :
    ∀ depth, nesting depth (ta ++ tb) = (nesting depth ta).bind (nesting · tb) := by
  induction ta with
  | nil => intro depth; rfl
  | cons t ta ih =>
    intro depth
    simp only [List.cons_append, nesting]
    split
    · exact ih _
    · split
      · split
        · rfl
        · exact ih _
      · exact ih _

lemma Sound.append (ha : Sound lo hi ta) (hb : Sound lo hi tb) : Sound lo hi (ta ++ tb) where
  balanced depth := by
    rw [nesting_append, ha.balanced, Option.bind_some, hb.balanced]
  params i hi := by
    rcases List.mem_append.mp hi with hi | hi
    · exact ha.params i hi
    · exact hb.params i hi

lemma Sound.mono (h : Sound lo hi ta) (hlo : lo' ≤ lo) (hhi : hi ≤ hi') : Sound lo' hi' ta where
  balanced := h.balanced
  params i hmem := ⟨hlo.trans_lt (h.params i hmem).1, (h.params i hmem).2.trans hhi⟩

/-- Tokens with no brackets and no parameters. -/
def isPlain : Token → Bool
  | .param _ => false
  | t => t ≠ openBracket && t ≠ closeBracket

lemma sound_of_plain (h : ta.all isPlain = true) : Sound lo hi ta := by
  rw [List.all_eq_true] at h
  refine ⟨?_, fun i hi => absurd (h _ hi) (by simp [isPlain])⟩
  induction ta with
  | nil => exact fun depth => rfl
  | cons t ta ih =>
    intro depth
    have ht : t ≠ openBracket ∧ t ≠ closeBracket := by
      have := h t (by simp)
      cases t <;> simp_all [isPlain, openBracket, closeBracket]
    rw [nesting, if_neg ht.1, if_neg ht.2]
    exact ih (fun u hu => h u (List.mem_cons_of_mem _ hu)) depth

/-- Tokens between brackets. -/
lemma Sound.paren (h : Sound lo hi ta) : Sound lo hi (openBracket :: ta ++ [closeBracket]) where
  balanced depth := by
    have hclose : nesting (depth + 1) [closeBracket] = some depth := by
      simp [nesting, openBracket, closeBracket]
    rw [List.cons_append, nesting, if_pos rfl, nesting_append, h.balanced, Option.bind_some, hclose]
  params i hi := by
    refine h.params i ?_
    simpa [openBracket, closeBracket] using hi

lemma Sound.intercalate {t : Token} (ht : isPlain t = true) {parts : List (List Token)}
    (h : ∀ part ∈ parts, Sound lo hi part) : Sound lo hi ([t].intercalate parts) := by
  have hsep : Sound lo hi [t] := sound_of_plain (by simpa using ht)
  induction parts with
  | nil => exact sound_of_plain rfl
  | cons part parts ih =>
    have hpart := h part (by simp)
    have hparts := ih fun p hp => h p (List.mem_cons_of_mem _ hp)
    cases parts with
    | nil => simpa using hpart
    | cons next parts =>
      rw [List.intercalate_cons_cons]
      exact (hpart.append hsep).append hparts

/-! ## Pieces -/

/-- A text that reads as `e`, at any level up to `level` before anything that binds no tighter
than `bound`, with balanced brackets and parameters above `lo` and up to `hi`. -/
def Piece (lo hi level bound : Nat) (text : String) (e : Expr) : Prop :=
  ∃ tokens, Renders text.toList tokens ∧ Operand level bound tokens e ∧ Sound lo hi tokens

variable {level bound levelA boundA levelB boundB : Nat} {text a b : String} {e ea eb : Expr}

lemma Piece.weaken (h : Piece lo hi level bound text e) {bound' : Nat} (hlevel : level' ≤ level)
    (hbound : bound' ≤ bound) : Piece lo hi level' bound' text e := by
  obtain ⟨tokens, hreads, hoperand, hsound⟩ := h
  exact ⟨tokens, hreads, hoperand.weaken hlevel hbound, hsound⟩

lemma Piece.mono (h : Piece lo hi level bound text e) (hlo : lo' ≤ lo) (hhi : hi ≤ hi') :
    Piece lo' hi' level bound text e := by
  obtain ⟨tokens, hreads, hoperand, hsound⟩ := h
  exact ⟨tokens, hreads, hoperand, hsound.mono hlo hhi⟩

lemma piece_bool (value : Bool) :
    Piece lo hi level topLevel (if value then "TRUE" else "FALSE") (.bool value) := by
  refine ⟨_, ?_, operand_bool value, ?_⟩
  · cases value
    · exact renders_of_readsAs (by decide)
    · exact renders_of_readsAs (by decide)
  · exact sound_of_plain (by cases value <;> rfl)

lemma piece_param {i : Nat} (hlo : lo < i) (hhi : i ≤ hi) :
    Piece lo hi level topLevel ("$" ++ toString i) (.param i) := by
  refine ⟨[.param i], ?_, operand_param i, ?_⟩
  · have := renders_param i
    simpa [String.toList_append, Nat.toList_repr] using this
  · refine ⟨fun depth => by simp [nesting, openBracket, closeBracket], fun j hj => ?_⟩
    obtain rfl : j = i := by simpa using hj
    exact ⟨hlo, hhi⟩

lemma piece_column {table : List Char}
    (hreads : readsAs text [.word table, .punct '.', .word name] = true)
    (htable : isReserved table = false) : Piece lo hi level topLevel text (.column table name) :=
  ⟨_, renders_of_readsAs hreads, operand_column htable name, sound_of_plain rfl⟩

lemma dollar_toDigits (n : Nat) : '$' ∉ Nat.toDigits 10 n :=
  fun h => absurd (isDigit_toDigits n _ h) (by decide)

lemma piece_number (n : Nat) :
    Piece lo hi level topLevel (toString n) (.number (Nat.toDigits 10 n)) := by
  refine ⟨_, ?_, operand_number _, sound_of_plain rfl⟩
  have := (reads_number n).renders (dollar_toDigits n) rfl
  simpa [Nat.toList_repr] using this

/-- An integer as an expression: a sign is an operator. -/
def intExpr : Int → Expr
  | .ofNat n => .number (Nat.toDigits 10 n)
  | .negSucc n => .neg (.number (Nat.toDigits 10 (n + 1)))

lemma piece_int (i : Int) : Piece lo hi level 7 (toString i) (intExpr i) := by
  cases i with
  | ofNat n => exact (piece_number n).weaken le_rfl (by decide)
  | negSucc n =>
    refine ⟨[.op ['-'], .number (Nat.toDigits 10 (n + 1))], ?_, ?_, sound_of_plain rfl⟩
    · have := (reads_negative (n + 1)).renders (by simpa using dollar_toDigits (n + 1)) rfl
      simpa [toString, Int.repr, String.toList_append, Nat.toList_repr] using this
    · exact (operand_number _).neg le_rfl (by decide)

/-- A text between two fixed ones. -/
lemma renders_between {left right : String} {tl tr : List Token} (hleft : opensAs left tl = true)
    (hright : separates right tr = true) (h : Renders text.toList tokens) :
    Renders (left ++ text ++ right).toList (tl ++ tokens ++ tr) := by
  rw [String.toList_append, String.toList_append]
  exact (((frames_of_opensAs hleft).2.renders_append h).separated hright).renders

/-- Two texts with a separator between them. -/
lemma renders_joined {tsep : List Token} (hsep : separates sep tsep = true)
    (ha : Renders a.toList ta) (hb : Renders b.toList tb) :
    Renders (a ++ sep ++ b).toList (ta ++ tsep ++ tb) := by
  rw [String.toList_append, String.toList_append]
  exact (ha.separated hsep).renders_append hb

lemma opensAs_openBracket : opensAs "(" [openBracket] = true := by decide

lemma separates_closeBracket : separates ")" [closeBracket] = true := by decide

lemma Piece.paren (h : Piece lo hi level bound text e) (hlevel : 1 ≤ level) :
    Piece lo hi level' topLevel ("(" ++ text ++ ")") e := by
  obtain ⟨tokens, hreads, hoperand, hsound⟩ := h
  exact ⟨openBracket :: tokens ++ [closeBracket],
    renders_between opensAs_openBracket separates_closeBracket hreads, hoperand.paren hlevel,
    hsound.paren⟩

lemma Piece.not (h : Piece lo hi level bound text e) (hlevel : 1 ≤ level) :
    Piece lo hi level' 2 ("NOT (" ++ text ++ ")") (.not e) := by
  obtain ⟨tokens, hreads, hoperand, hsound⟩ := h
  have hparen : Operand notLevel topLevel (openBracket :: tokens ++ [closeBracket]) e :=
    hoperand.paren hlevel
  have hopen : opensAs "NOT (" [.word "not".toList, openBracket] = true := by decide
  have hword : Sound lo hi [.word "not".toList] := sound_of_plain rfl
  exact ⟨.word "not".toList :: (openBracket :: tokens ++ [closeBracket]),
    renders_between hopen separates_closeBracket hreads, hparen.not le_rfl (by decide),
    hword.append hsound.paren⟩

/-- `EXISTS (SELECT 1 FROM table WHERE condition)`. -/
lemma Piece.existsIn (h : Piece lo hi level bound text e) (hlevel : 1 ≤ level) {head : String}
    {table : List Char}
    (hhead : opensAs head
      (.word "exists".toList :: existsHead ++ [.word table, .word "where".toList]) = true) :
    Piece lo hi level' topLevel (head ++ text ++ ")") (.existsIn table e) := by
  obtain ⟨tokens, hreads, hoperand, hsound⟩ := h
  refine ⟨_, renders_between hhead separates_closeBracket hreads, hoperand.existsIn hlevel table, ?_⟩
  have hword : Sound lo hi [.word "exists".toList] := sound_of_plain rfl
  have hinner : Sound lo hi (openBracket :: (existsHead.tail ++
      [.word table, .word "where".toList] ++ tokens) ++ [closeBracket]) :=
    Sound.paren ((sound_of_plain rfl).append hsound)
  simpa [existsHead] using hword.append hinner

lemma Piece.binary {j : Joint} (hj : joint? (.op name) = some j)
    (ha : Piece lo hi levelA boundA a ea) (hboundA : j.level ≤ boundA)
    (hb : Piece lo hi levelB boundB b eb) (hlevelB : j.level + 1 ≤ levelB)
    (hboundB : j.after ≤ boundB) (hsep : separates sep [.op name] = true) :
    Piece lo hi (min levelA j.level) j.after (a ++ sep ++ b) (.binary name ea eb) := by
  obtain ⟨ta, hreadsA, hoperandA, hsoundA⟩ := ha
  obtain ⟨tb, hreadsB, hoperandB, hsoundB⟩ := hb
  refine ⟨ta ++ [.op name] ++ tb, renders_joined hsep hreadsA hreadsB, ?_,
    (hsoundA.append (sound_of_plain rfl)).append hsoundB⟩
  simpa using .binary hj hoperandA hboundA hoperandB hlevelB hboundB

/-- A text with a fixed one behind it. -/
lemma Piece.suffixed (h : Piece lo hi level bound text e) {suffix : String} {ts : List Token}
    (hcalms : calms suffix.toList = true) (hreads : readsAs suffix ts = true)
    (hplain : ts.all isPlain = true) {bound' : Nat} {result : Expr}
    (hoperand : ∀ tokens, Operand level bound tokens e →
      Operand level' bound' (tokens ++ ts) result) :
    Piece lo hi level' bound' (text ++ suffix) result := by
  obtain ⟨tokens, htext, hop, hsound⟩ := h
  refine ⟨tokens ++ ts, ?_, hoperand tokens hop, hsound.append (sound_of_plain hplain)⟩
  rw [String.toList_append]
  have hdollar : '$' ∉ suffix.toList := by
    simp only [readsAs, Bool.and_eq_true, Bool.not_eq_true'] at hreads
    simpa using hreads.1.1.1
  exact htext.append hcalms hdollar (renders_of_readsAs hreads)

/-! ## Lists of pieces -/

/-- Pieces with a separator between them. -/
lemma pieces {es : List Expr} (h : List.Forall₂ (Piece lo hi level bound) texts es)
    (hne : texts ≠ []) {t : Token} (hsep : separates sep [t] = true) (ht : isPlain t = true) :
    ∃ parts, List.Forall₂ (Operand level bound) parts es ∧ parts ≠ [] ∧
      Renders (sep.intercalate texts).toList ([t].intercalate parts) ∧
      Sound lo hi ([t].intercalate parts) := by
  obtain ⟨parts, hparts⟩ : ∃ parts : List (List Token),
      List.Forall₂ (fun text tokens => Renders text.toList tokens) texts parts ∧
      List.Forall₂ (Operand level bound) parts es ∧ ∀ part ∈ parts, Sound lo hi part := by
    clear hne
    induction h with
    | nil => exact ⟨[], .nil, .nil, by simp⟩
    | cons hpiece _ ih =>
      obtain ⟨tokens, hreads, hoperand, hsound⟩ := hpiece
      obtain ⟨parts, hparts, hoperands, hsounds⟩ := ih
      exact ⟨tokens :: parts, .cons hreads hparts, .cons hoperand hoperands,
        List.forall_mem_cons.mpr ⟨hsound, hsounds⟩⟩
  obtain ⟨hreads, hoperands, hsounds⟩ := hparts
  refine ⟨parts, hoperands, ?_, ?_, Sound.intercalate ht hsounds⟩
  · rintro rfl
    exact hne (List.forall₂_nil_right_iff.mp hreads)
  · rw [String.toList_intercalate]
    clear hoperands hsounds h
    induction hreads with
    | nil => exact absurd rfl hne
    | @cons text part texts parts hfirst hrest ih =>
      cases hrest with
      | nil => simpa using hfirst
      | @cons next _ texts parts hnext hrest =>
        rw [List.map_cons, List.map_cons, List.intercalate_cons_cons, List.intercalate_cons_cons]
        exact (hfirst.separated hsep).renders_append (ih (by simp))

lemma Piece.isIn (h : Piece lo hi level bound text e) (hbound : 6 ≤ bound) {es : List Expr}
    (hitems : List.Forall₂ (Piece lo hi 1 0) texts es) (hne : texts ≠ []) :
    Piece lo hi (min level 6) 6 (text ++ " IN (" ++ ", ".intercalate texts ++ ")")
      (.isIn e es) := by
  obtain ⟨tokens, hreads, hoperand, hsound⟩ := h
  have hcomma : separates ", " [.punct ','] = true := by decide
  obtain ⟨parts, hoperands, hne', hreads', hsound'⟩ := pieces hitems hne hcomma rfl
  have hin : separates " IN (" [.word "in".toList, openBracket] = true := by decide
  have hword : Sound lo hi [.word "in".toList] := sound_of_plain rfl
  refine ⟨_, ?_, hoperand.isIn hbound hoperands hne', ?_⟩
  · have hlist := (renders_joined hin hreads hreads').separated separates_closeBracket
    rw [String.toList_append]
    simpa using hlist.renders
  · simpa using hsound.append (hword.append hsound'.paren)

/-! ## Conjunctions and disjunctions -/

/-- The expression that joined operands read as. -/
def foldJoin (build : Expr → Expr → Expr) : List Expr → Expr
  | [] => .bool true
  | e :: es => es.foldl build e

/-- Operands joined by `OR`. -/
lemma piece_or {es : List Expr} (hne : texts ≠ []) (h : List.Forall₂ (Piece lo hi 2 1) texts es) :
    Piece lo hi 1 1 (" OR ".intercalate texts) (foldJoin .or es) := by
  have hsep : separates " OR " [.word "or".toList] = true := by decide
  obtain ⟨parts, hoperands, hne', hreads, hsound⟩ := pieces h hne hsep rfl
  refine ⟨_, hreads, ?_, hsound⟩
  cases hoperands with
  | nil => exact absurd rfl hne'
  | cons hfirst hrest =>
    exact chain (j := .or) rfl rfl (fun _ _ _ _ => rfl) hrest (hfirst.weaken (by decide) le_rfl)

/-- A text that is operands joined by `AND`, or one. -/
def Conjunction (lo hi : Nat) (text : String) (es : List Expr) : Prop :=
  ∃ parts, List.Forall₂ (Operand 3 2) parts es ∧ parts ≠ [] ∧
    Renders text.toList ([.word "and".toList].intercalate parts) ∧
    Sound lo hi ([.word "and".toList].intercalate parts)

variable {es : List Expr}

lemma Conjunction.mono (h : Conjunction lo hi text es) (hlo : lo' ≤ lo) (hhi : hi ≤ hi') :
    Conjunction lo' hi' text es := by
  obtain ⟨parts, hoperands, hne, hreads, hsound⟩ := h
  exact ⟨parts, hoperands, hne, hreads, hsound.mono hlo hhi⟩

lemma Piece.conjunction (h : Piece lo hi level bound text e) (hlevel : 3 ≤ level)
    (hbound : 2 ≤ bound) : Conjunction lo hi text [e] := by
  obtain ⟨tokens, hreads, hoperand, hsound⟩ := h
  exact ⟨[tokens], .cons (hoperand.weaken hlevel hbound) .nil, by simp, by simpa using hreads,
    by simpa using hsound⟩

/-- A conjunction as one operand. -/
lemma Conjunction.piece (h : Conjunction lo hi text es) :
    Piece lo hi 2 2 text (foldJoin .and es) := by
  obtain ⟨parts, hoperands, hne, hreads, hsound⟩ := h
  refine ⟨_, hreads, ?_, hsound⟩
  cases hoperands with
  | nil => exact absurd rfl hne
  | cons hfirst hrest =>
    exact chain (j := .and) rfl rfl (fun _ _ _ _ => rfl) hrest (hfirst.weaken (by decide) le_rfl)

lemma intercalate_append {α : Type} {sep : List α} {as bs : List (List α)} (ha : as ≠ [])
    (hb : bs ≠ []) :
    sep.intercalate (as ++ bs) = sep.intercalate as ++ sep ++ sep.intercalate bs := by
  induction as with
  | nil => exact absurd rfl ha
  | cons a as ih =>
    cases as with
    | nil =>
      obtain ⟨b, bs, rfl⟩ := List.exists_cons_of_ne_nil hb
      simp [List.intercalate_cons_cons]
    | cons a' as =>
      have := ih (by simp)
      simp only [List.cons_append, List.intercalate_cons_cons] at this ⊢
      rw [this]
      simp

/-- **Conjunctions joined by `AND` are one conjunction.** -/
lemma conjunction_join {ess : List (List Expr)} (hsep : separates sep [.word "and".toList] = true)
    (h : List.Forall₂ (Conjunction lo hi) texts ess) (hne : texts ≠ []) :
    Conjunction lo hi (sep.intercalate texts) ess.flatten := by
  have hword : Sound lo hi [.word "and".toList] := sound_of_plain rfl
  induction h with
  | nil => exact absurd rfl hne
  | @cons text es texts ess hfirst hrest ih =>
    cases hrest with
    | nil => simpa using hfirst
    | @cons next _ texts ess hnext hrest =>
      obtain ⟨parts, hoperands, hparts, hreads, hsound⟩ := hfirst
      obtain ⟨parts', hoperands', hparts', hreads', hsound'⟩ := ih (by simp)
      refine ⟨parts ++ parts', List.rel_append hoperands hoperands', by simp [hparts], ?_, ?_⟩
      · rw [intercalate_append hparts hparts']
        have htext : (sep.intercalate (text :: next :: texts)).toList =
            (text ++ sep ++ sep.intercalate (next :: texts)).toList := by
          simp [String.toList_intercalate]
        rw [htext]
        exact renders_joined hsep hreads hreads'
      · rw [intercalate_append hparts hparts']
        exact (hsound.append hword).append hsound'

end Sql
