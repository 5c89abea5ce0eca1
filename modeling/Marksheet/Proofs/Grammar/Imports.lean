import Marksheet.Proofs.Grammar.SimpleLines

/-!
# Imports are read

The name of a module is kept by the exact text of its tokens. In print nothing stands
between these tokens, so the text is the name, dots and all.
-/

namespace Marksheet.Grammar

open Marksheet.Source Marksheet.Syntax

/-! ### The text of tokens -/

/-- The text of tokens without gaps. -/
theorem toList_verbatim {tokens : List Token} (h : ∀ token ∈ tokens, token.gap = []) :
    (verbatim tokens).toList = tokens.flatMap fun token => token.text.toList := by
  induction tokens with
  | nil => rfl
  | cons token tokens ih =>
    have hgap := h token List.mem_cons_self
    have hrest := ih fun other hm => h other (List.mem_cons_of_mem _ hm)
    rw [verbatim, List.foldr_cons, ← verbatim, String.toList_append, hrest, Token.verbatim, hgap,
      List.foldr_nil, List.flatMap_cons]

/-- The texts of the shapes of a mark are its text. -/
theorem chars_of_shapes (mark : Mark) :
    (mark.shapes.flatMap fun shape => shape.2.toList) = mark.chars := by
  cases mark with
  | quoted text =>
    rw [Mark.shapes, Mark.chars]
    split <;> simp_all
  | _ => exact List.append_nil _

/-- The text between two points of a reading, if no blank stands between the pieces read. -/
theorem toList_textBetween {tokens : List Token} {piece : Piece} {pieces : List Piece}
    (h : Writes tokens (piece :: pieces)) (hb : ∀ other ∈ pieces, other.blank = false)
    (rest : List Token) :
    (textBetween (tokens ++ rest) rest).toList =
      (piece :: pieces).flatMap fun other => other.mark.chars := by
  obtain ⟨token, tail, rfl⟩ :=
    List.exists_cons_of_ne_nil (h.spells.ne_nil (shapesOf_ne_nil (List.cons_ne_nil _ _)))
  have hgaps := (h.close false).gap_eq_nil (List.forall_mem_cons.mpr ⟨rfl, hb⟩)
  have hshapes : (token :: tail).flatMap (fun token => token.text.toList) =
      (shapesOf (piece :: pieces)).flatMap fun shape => shape.2.toList := by
    rw [← h.spells.shape, List.flatMap_map]
    rfl
  have htake : (token :: tail ++ rest).take ((token :: tail ++ rest).length - rest.length) =
      token :: tail := by
    rw [List.length_append, Nat.add_sub_cancel, List.take_left]
  rw [textBetween, htake]
  simp only [String.toList_append,
    toList_verbatim fun other hm => hgaps other (List.mem_cons_of_mem _ hm)]
  refine Eq.trans hshapes ?_
  simp only [shapesOf, List.flatMap_assoc, chars_of_shapes]

/-! ### Names with dots -/

/-- The text of a name in print. -/
theorem chars_dotted (name : String) :
    ((dotted (partsOf name)).flatMap fun piece => piece.mark.chars) = name.toList := by
  have hdotted (parts : List (List Char)) (hne : parts ≠ []) :
      ((dotted (parts.map String.ofList)).flatMap fun piece => piece.mark.chars) =
        ['.'].intercalate parts := by
    obtain ⟨part, parts, rfl⟩ := List.exists_cons_of_ne_nil hne
    rw [List.map_cons, dotted, List.flatMap_cons]
    induction parts generalizing part with
    | nil => simp [Mark.chars, close]
    | cons next parts ih =>
      rw [List.map_cons, List.flatMap_cons, List.flatMap_append,
        List.intercalate_cons_cons, ← ih next (List.cons_ne_nil _ _)]
      simp [Mark.chars, close, Symbol.text]
  rw [partsOf, hdotted _ (List.splitOn_ne_nil _ _), List.intercalate_splitOn]

/-- The pieces of a name have no blanks between them. -/
theorem dotted_glued (parts : List String) : ∀ piece ∈ dotted parts, piece.blank = false := by
  cases parts with
  | nil => nofun
  | cons part parts =>
    rw [dotted, List.forall_mem_cons]
    refine ⟨rfl, fun piece hm => ?_⟩
    obtain ⟨next, -, hm⟩ := List.mem_flatMap.mp hm
    simp only [List.mem_cons, List.not_mem_nil, or_false] at hm
    rcases hm with rfl | rfl <;> rfl

theorem partsOf_ne_nil (name : String) : partsOf name ≠ [] := by
  rw [partsOf, ne_eq, List.map_eq_nil_iff]
  exact List.splitOn_ne_nil _ _

section

variable {place : Place} {rest : List Token}
  (hr : peekSymbol place.indent place.viable .dot rest = false)

include hr

/-- Words behind dots are read as far as there are dots. -/
theorem dottedTail_eq_ok (parts : List String) : ∀ fuel, parts.length ≤ fuel → ∀ tokens,
    Spells tokens (shapesOf (parts.flatMap fun next => [close (.sign .dot), close (.word next)])) →
      dottedTail place fuel (tokens ++ rest) = .ok ((), rest) := by
  induction parts with
  | nil =>
    intro fuel _ tokens ht
    obtain rfl := ht.nil_inv
    cases fuel with
    | zero => rfl
    | succ fuel => simp only [List.nil_append, dottedTail, hr, Bool.false_eq_true, if_false]
  | cons part parts ih =>
    intro fuel hfuel tokens ht
    obtain ⟨dot, tail, rfl, hsnug, hdot, htail⟩ :=
      (show Spells tokens (.sign .dot :: .word part :: shapesOf _) from ht).cons_inv
    obtain ⟨word, tail, rfl, hword, hshape, htail⟩ := htail.cons_inv
    obtain ⟨fuel, rfl⟩ : ∃ less, fuel = less + 1 :=
      ⟨fuel - 1, by rw [List.length_cons] at hfuel; omega⟩
    have hmark : dot.isSymbol .dot = true := isSymbol_of_sign hdot .dot
    have hlexeme : word.lexeme = .word := congrArg Prod.fst hshape
    simp only [List.cons_append, dottedTail, peekSymbol_of_snug hsnug, hmark, if_true,
      passSymbol_of_snug hsnug _ _ _ hmark, passName_of_snug hword _ _ _ hlexeme, bind, Except.bind]
    exact ih fuel (Nat.le_of_succ_le_succ hfuel) tail htail

theorem dottedName_eq_ok {parts : List String} (hne : parts ≠ []) {tokens : List Token}
    (ht : Spells tokens (shapesOf (dotted parts))) :
    dottedName place (tokens ++ rest) = .ok ((), rest) := by
  obtain ⟨part, parts, rfl⟩ := List.exists_cons_of_ne_nil hne
  obtain ⟨word, tail, rfl, -, hshape, htail⟩ :=
    (show Spells tokens (.word part :: shapesOf _) from ht).cons_inv
  have hlexeme : word.lexeme = .word := congrArg Prod.fst hshape
  have hfuel : parts.length ≤ (tail ++ rest).length := by
    have hlen := htail.length_eq
    have hparts : parts.length ≤ (shapesOf (parts.flatMap fun next =>
        [close (.sign .dot), close (.word next)])).length := by
      clear * -
      induction parts with
      | nil => exact Nat.le_refl 0
      | cons next parts ih =>
        rw [List.flatMap_cons, shapesOf_append, List.length_append, List.length_cons]
        have htwo : (shapesOf [close (.sign .dot), close (.word next)]).length = 2 := rfl
        omega
    rw [List.length_append]
    omega
  simp only [List.cons_append, dottedName, takeName, hlexeme, if_true, bind, Except.bind]
  exact dottedTail_eq_ok hr parts _ hfuel tail htail

end

/-- A word that holds on too tightly to follow does not come next. -/
theorem Follows.peekWord_eq_false {place : Place} {limit : Nat} {tokens : List Token}
    (h : Follows place limit tokens) {word : String} (hs : limit ≤ wordTightness word) :
    peekWord place.indent place.viable word tokens = false := by
  cases h with
  | ends h => simp only [peekWord, peek, h place.viable.quote, Option.map_none]
  | @snug token rest hsnug ht =>
    simp only [peekWord, peek_of_snug hsnug, close_isWord]
    rw [Token.isWord, Bool.and_eq_false_iff]
    by_contra hc
    simp only [not_or, Bool.not_eq_false, decide_eq_true_eq] at hc
    rw [shapeOf, hc.1, hc.2] at ht
    exact absurd (ht.trans_le hs) (Nat.lt_irrefl _)

/-! ### Imported names -/

/-- An imported name is read with the name that it is bound to. -/
theorem importName_eq_ok (imported : ImportName) {tokens rest : List Token}
    (ht : Writes tokens (importPieces imported)) {place : Place} (hr : Follows place 1 rest) :
    importName place (tokens ++ rest) = .ok (imported, rest) := by
  obtain ⟨name, asname⟩ := imported
  rw [importPieces] at ht
  obtain ⟨before, more, rfl, hname, hmore⟩ := ht.append_inv
  have hread {rest : List Token} (hd : peekSymbol place.indent place.viable .dot rest = false) :
      dottedName place (before ++ rest) = .ok ((), rest) :=
    dottedName_eq_ok hd (partsOf_ne_nil name) hname.spells
  have htext (rest : List Token) : textBetween (before ++ rest) rest = name := by
    obtain ⟨part, parts, hparts⟩ := List.exists_cons_of_ne_nil (partsOf_ne_nil name)
    have hglued := dotted_glued (partsOf name)
    have hchars := chars_dotted name
    rw [hparts, dotted] at hname hglued hchars
    refine String.toList_inj.mp (Eq.trans ?_ hchars)
    exact toList_textBetween hname (fun piece hm => hglued piece (List.mem_cons_of_mem _ hm)) rest
  cases asname with
  | none =>
    obtain rfl := hmore.spells.nil_inv
    rw [List.append_nil, importName, hread (hr.peekSymbol_eq_false (by decide))]
    simp only [bind, Except.bind, hr.peekWord_eq_false (show 1 ≤ wordTightness "as" by decide),
      Bool.false_eq_true, if_false, htext]
    rfl
  | some given =>
    obtain ⟨word, tail, rfl, hword, hshape, htail⟩ :=
      (show Spells more (.word "as" :: shapesOf [apart (.word given)]) from hmore.spells).cons_inv
    obtain ⟨last, rfl, hlast, hshape'⟩ := htail.single_inv
    have has : word.isWord "as" = true := isWord_of_word hshape "as"
    have hdot : peekSymbol place.indent place.viable .dot (word :: last :: rest) = false := by
      rw [peekSymbol_of_snug hword, isSymbol_of_word hshape]
    have hpeek : peekWord place.indent place.viable "as" (word :: last :: rest) = true := by
      simp only [peekWord, peek_of_snug hword, close_isWord, has]
    have hlexeme : last.lexeme = .word := congrArg Prod.fst hshape'
    obtain rfl : last.text = given := congrArg Prod.snd hshape'
    rw [List.append_assoc, List.cons_append, List.cons_append, List.nil_append, importName,
      hread hdot]
    simp only [bind, Except.bind, hpeek, if_true, htext, passWord_of_snug hword _ _ _ has,
      passName_of_snug hlast _ _ _ hlexeme]
    rfl

/-- Imported names begin with a word. -/
theorem exists_separated_imports (imported : ImportName) (names : List ImportName) :
    ∃ part more, separated ((imported :: names).map importPieces) = close (.word part) :: more := by
  obtain ⟨part, parts, hparts⟩ := List.exists_cons_of_ne_nil (partsOf_ne_nil imported.name)
  have hpieces : ∃ more, importPieces imported = close (.word part) :: more := by
    rw [importPieces, hparts, dotted, List.cons_append]
    exact ⟨_, rfl⟩
  obtain ⟨more, hmore⟩ := hpieces
  cases names with
  | nil => exact ⟨part, more, hmore⟩
  | cons next names =>
    rw [List.map_cons, List.map_cons, separated, hmore, List.cons_append]
    exact ⟨part, _, rfl⟩

/-- Imported names are read up to the end of the line. -/
theorem importNames_eq_ok {indent : Nat} {rest : List Token} (hr : Behind indent rest)
    (names : List ImportName) : ∀ (first : ImportName) (fuel : Nat), names.length < fuel →
      ∀ found tokens, Writes tokens (separated ((first :: names).map importPieces)) →
        importNames (lineOf indent) fuel found (tokens ++ rest) =
          .ok (found ++ first :: names, rest) := by
  induction names with
  | nil =>
    intro first fuel hfuel found tokens ht
    obtain ⟨fuel, rfl⟩ := Nat.exists_eq_succ_of_ne_zero hfuel.ne'
    have hread := importName_eq_ok first ht (hr.follows 1)
    have hnone : ahead (lineOf indent).indent (lineOf indent).viable rest = none :=
      hr.ahead_eq_none rfl rfl
    simp only [importNames, hread, bind, Except.bind, hnone]
    rfl
  | cons next names ih =>
    intro first fuel hfuel found tokens ht
    obtain ⟨fuel, rfl⟩ := Nat.exists_eq_succ_of_ne_zero (Nat.ne_zero_of_lt hfuel)
    rw [List.map_cons, List.map_cons, separated, ← List.map_cons] at ht
    obtain ⟨before, behind, rfl, hbefore, hbehind⟩ := ht.append_inv
    obtain ⟨comma, tail, rfl, hsnug, hcomma, -, htail⟩ := hbehind.cons_inv rfl
    have hmark : comma.isSymbol .comma = true := isSymbol_of_sign hcomma .comma
    have hfollows : Follows (lineOf indent) 1 (comma :: (tail ++ rest)) :=
      .snug hsnug (by rw [hcomma]; decide)
    -- The next name begins with a word, which is what goes on the list behind a comma.
    obtain ⟨part, more, hpieces⟩ := exists_separated_imports next names
    rw [hpieces] at htail
    obtain ⟨word, tail, rfl, hword, hshape, -⟩ := htail.cons_inv rfl
    have hclosed := htail.close false
    have hlexeme : word.lexeme = .word := congrArg Prod.fst hshape
    have hnext := ih next fuel (Nat.lt_of_succ_lt_succ hfuel) (found ++ [first])
      (word.close :: tail) (hpieces ▸ hclosed)
    rw [List.append_assoc, List.cons_append, importNames,
      importName_eq_ok first hbefore hfollows]
    simp only [bind, Except.bind, ahead_of_snug hsnug, close_isSymbol, hmark, if_true,
      List.cons_append, ahead_of_snug hword, close_lexeme, hlexeme]
    rw [← List.cons_append, hnext, List.append_assoc, List.singleton_append]

/-- There are enough tokens for all imported names. -/
theorem length_lt_of_writes {indent : Nat} {rest : List Token} (hr : Behind indent rest)
    {first : ImportName} {names : List ImportName} {tokens : List Token}
    (ht : Writes tokens (separated ((first :: names).map importPieces))) :
    names.length < (tokens ++ rest).length := by
  have hlen := ht.spells.length_eq
  have hcommas := length_le_behindCommas ((names.map importPieces).map shapesOf)
  rw [List.map_cons, shapesOf_separated, List.length_append] at hlen
  rw [List.length_map, List.length_map] at hcommas
  obtain ⟨-, -, -, rest⟩ := hr
  rw [List.length_append, List.length_cons]
  omega

theorem keyword_import (n : Nested) (indent : Nat) :
    keywordStatement? n indent "import" = some fun tokens => do
      let (_, tokens) ← pass indent {} tokens
      let (found, tokens) ← importNames (lineOf indent) tokens.length [] tokens
      return (.imports found, tokens) :=
  rfl

/-- A list of imported names is a statement. -/
theorem imports_readsLine (first : ImportName) (names : List ImportName) :
    ReadsLine (close (.word "import") :: spaced (separated ((first :: names).map importPieces)))
      (.imports (first :: names)) := by
  intro token tail ht levels _ indent rest hr b
  obtain ⟨word, more, he, -, hshape, -, hmore⟩ := ht.cons_inv rfl
  obtain ⟨rfl, rfl⟩ := List.cons.inj he
  obtain ⟨part, pieces, hpieces⟩ := exists_separated_imports first names
  obtain ⟨closed, hclosed, hpass⟩ := hmore.exists_pass (hpieces ▸ List.cons_ne_nil _ _)
  have hread := importNames_eq_ok hr names first _ (length_lt_of_writes hr hclosed) [] closed hclosed
  have hkeyword := keyword_import (nested levels) indent
  refine ⟨.imports (first :: names), statement_of_keyword hr (by decide) hshape hkeyword ?_ b, rfl,
    fun _ => rfl⟩
  simp only [hpass, bind, Except.bind, hread]
  rfl

/-! ### Modules -/

/-- Dots that are written together have as many characters as they are. -/
theorem chars_dots (count : Nat) :
    ((dots count).flatMap fun piece => piece.mark.chars) = List.replicate count '.' := by
  have hthree (count : Nat) :
      ((List.replicate count (close (.sign .ellipsis))).flatMap fun piece => piece.mark.chars) =
        List.replicate (3 * count) '.' := by
    induction count with
    | zero => rfl
    | succ count ih => rw [List.replicate_succ, List.flatMap_cons, ih]; rfl
  have hone (count : Nat) :
      ((List.replicate count (close (.sign .dot))).flatMap fun piece => piece.mark.chars) =
        List.replicate count '.' := by
    induction count with
    | zero => rfl
    | succ count ih => rw [List.replicate_succ, List.flatMap_cons, ih]; rfl
  rw [dots, List.flatMap_append, hthree, hone, List.replicate_append_replicate,
    Nat.div_add_mod]

/-- The text of a module in print. -/
theorem chars_modulePieces (module : String) :
    ((modulePieces module).flatMap fun piece => piece.mark.chars) = module.toList := by
  have hleading : List.replicate (leadingDots module) '.' =
      module.toList.takeWhile fun c => decide (c = '.') := by
    refine (List.eq_replicate_of_mem fun c hc => ?_).symm
    have hdot := List.mem_takeWhile_imp hc
    exact of_decide_eq_true hdot
  have hbehind : ((if (behindDots module).isEmpty then []
      else dotted (partsOf (behindDots module))).flatMap fun piece => piece.mark.chars) =
        (behindDots module).toList := by
    split
    · rename_i hempty
      rw [String.isEmpty_iff.mp hempty]
      rfl
    · exact chars_dotted _
  rw [modulePieces, List.flatMap_append, chars_dots, hbehind, hleading, behindDots,
    String.toList_ofList, List.takeWhile_append_dropWhile]

/-- Dots are passed, however they are written, up to what is no dot. -/
theorem importDots_eq_ok {indent : Nat} {next : Token} {rest : List Token} (hs : Snug next)
    (hd : next.isSymbol .dot = false) (he : next.isSymbol .ellipsis = false) {pieces : List Piece}
    (hp : ∀ piece ∈ pieces, piece = close (.sign .dot) ∨ piece = close (.sign .ellipsis)) :
    ∀ fuel, pieces.length ≤ fuel → ∀ found tokens, Writes tokens pieces →
      importDots indent fuel found (tokens ++ next :: rest) =
        .ok (found || !pieces.isEmpty, next :: rest) := by
  induction pieces with
  | nil =>
    intro fuel _ found tokens ht
    obtain rfl := ht.spells.nil_inv
    rw [List.nil_append, List.isEmpty_nil, Bool.not_true, Bool.or_false]
    cases fuel with
    | zero => rfl
    | succ fuel =>
      simp only [importDots, ahead_of_snug hs, close_isSymbol, hd, he, Bool.or_false,
        Bool.false_eq_true, if_false]
  | cons piece pieces ih =>
    intro fuel hfuel found tokens ht
    obtain ⟨fuel, rfl⟩ : ∃ less, fuel = less + 1 :=
      ⟨fuel - 1, by rw [List.length_cons] at hfuel; omega⟩
    have hone : ∃ symbol, piece = close (.sign symbol) ∧ (symbol = .dot ∨ symbol = .ellipsis) := by
      rcases hp piece List.mem_cons_self with rfl | rfl
      · exact ⟨.dot, rfl, .inl rfl⟩
      · exact ⟨.ellipsis, rfl, .inr rfl⟩
    obtain ⟨symbol, rfl, hsymbol⟩ := hone
    obtain ⟨dot, tail, rfl, hsnug, hshape, -, htail⟩ := ht.cons_inv rfl
    have hdot : (dot.isSymbol .dot || dot.isSymbol .ellipsis) = true := by
      rw [isSymbol_of_sign hshape, isSymbol_of_sign hshape]
      rcases hsymbol with rfl | rfl <;> rfl
    have hmore := ih (fun other hm => hp other (List.mem_cons_of_mem _ hm)) fuel
      (Nat.le_of_succ_le_succ hfuel) true tail htail
    simp only [List.cons_append, importDots, ahead_of_snug hsnug, close_isSymbol, hdot, if_true,
      hmore, Bool.true_or, List.isEmpty_cons, Bool.not_false, Bool.or_true]

theorem mem_dots {count : Nat} {piece : Piece} (h : piece ∈ dots count) :
    piece = close (.sign .dot) ∨ piece = close (.sign .ellipsis) := by
  rcases List.mem_append.mp h with h | h
  · exact .inr (List.eq_of_mem_replicate h)
  · exact .inl (List.eq_of_mem_replicate h)

theorem dots_isEmpty (count : Nat) : (!(dots count).isEmpty) = decide (0 < count) := by
  rw [Bool.eq_iff_iff, Bool.not_eq_true', ← Bool.not_eq_true, List.isEmpty_iff, decide_eq_true_eq,
    dots, List.append_eq_nil_iff, List.replicate_eq_nil_iff, List.replicate_eq_nil_iff]
  omega

theorem modulePieces_glued (module : String) : ∀ piece ∈ modulePieces module, piece.blank = false := by
  intro piece hm
  rw [modulePieces] at hm
  rcases List.mem_append.mp hm with hm | hm
  · rcases mem_dots hm with rfl | rfl <;> rfl
  · split at hm
    · cases hm
    · exact dotted_glued _ piece hm

theorem modulePieces_ne_nil {module : String} (h : isModuleName module = true) :
    modulePieces module ≠ [] := by
  intro he
  have hchars := chars_modulePieces module
  rw [he] at hchars
  obtain rfl : module = "" := String.toList_inj.mp hchars.symm
  revert h
  decide

/-- A module is read up to the word behind it. -/
theorem importModule_eq_ok {module : String} (hm : isModuleName module = true) {tokens : List Token}
    (ht : Writes tokens (modulePieces module)) (indent : Nat) {next : Token} (hs : Snug next)
    (hn : shapeOf next = .word "import") (rest : List Token) :
    importModule indent (tokens ++ next :: rest) = .ok (module, next :: rest) := by
  have htext : textBetween (tokens ++ next :: rest) (next :: rest) = module := by
    have hchars := chars_modulePieces module
    have hglued := modulePieces_glued module
    obtain ⟨piece, pieces, hpieces⟩ := List.exists_cons_of_ne_nil (modulePieces_ne_nil hm)
    rw [hpieces] at ht hchars hglued
    refine String.toList_inj.mp (Eq.trans ?_ hchars)
    exact toList_textBetween ht (fun other hm => hglued other (List.mem_cons_of_mem _ hm)) _
  obtain ⟨before, name, rfl, hbefore, hname⟩ := ht.append_inv
  have hfuel : (dots (leadingDots module)).length ≤ (before ++ (name ++ next :: rest)).length := by
    have hlen := hbefore.spells.length_eq
    have hpieces := length_le_shapesOf (dots (leadingDots module))
    rw [List.length_append]
    omega
  have hdots {first : Token} {more : List Token} (hsnug : Snug first) {text : String}
      (hshape : shapeOf first = .word text) (hrest : name ++ next :: rest = first :: more) :
      importDots indent (before ++ (name ++ next :: rest)).length false
          (before ++ (name ++ next :: rest)) =
        .ok (decide (0 < leadingDots module), name ++ next :: rest) := by
    rw [hrest] at hfuel ⊢
    rw [importDots_eq_ok hsnug (isSymbol_of_word hshape _) (isSymbol_of_word hshape _)
      (fun piece => mem_dots) _ hfuel false before hbefore, dots_isEmpty, Bool.false_or]
  rw [List.append_assoc] at htext ⊢
  rw [importModule]
  rw [isModuleName, Bool.or_eq_true, Bool.and_eq_true, decide_eq_true_eq] at hm
  split at hname
  · rename_i hempty
    obtain rfl := hname.spells.nil_inv
    have hleading : 0 < leadingDots module := by
      refine (hm.resolve_left fun hdotted => ?_).2
      rw [String.isEmpty_iff.mp hempty] at hdotted
      revert hdotted
      decide
    have himport : next.isWord "import" = true := isWord_of_word hn "import"
    have hpeek : peekWord indent {} "import" (next :: rest) = true := by
      simp only [peekWord, peek_of_snug hs, close_isWord, himport]
    have hread := hdots hs hn rfl
    rw [List.nil_append] at hread htext ⊢
    simp only [hread, bind, Except.bind, hleading, decide_true, hpeek, Bool.and_true, if_true, htext]
    rfl
  · rename_i hsome
    have hdotted : isDottedName (behindDots module) = true := hm.resolve_right fun h => hsome h.1
    have hspells := hname.spells
    obtain ⟨part, parts, hparts⟩ := List.exists_cons_of_ne_nil (partsOf_ne_nil (behindDots module))
    rw [isDottedName, hparts, List.all_cons, Bool.and_eq_true, isName, Bool.and_eq_true,
      Bool.not_eq_true'] at hdotted
    rw [hparts, dotted] at hname
    obtain ⟨first, tail, rfl, hsnug, hshape, -, -⟩ := hname.cons_inv rfl
    -- The first part is no keyword, so the word `import` does not come yet.
    have himport : part ≠ "import" := by
      rintro rfl
      exact absurd hdotted.1.2 (by decide)
    have hpeek : peekWord indent {} "import" (first :: (tail ++ next :: rest)) = false := by
      simp only [peekWord, peek_of_snug hsnug, close_isWord, isWord_of_word hshape, himport,
        decide_false]
    have hdot : peekSymbol indent {} .dot (next :: rest) = false := by
      rw [peekSymbol_of_snug hs, isSymbol_of_word hn]
    have hname := @dottedName_eq_ok ⟨indent, {}⟩ _ hdot _ (partsOf_ne_nil _) _ hspells.close
    have hread := hdots hsnug hshape rfl
    rw [List.cons_append] at hread hname htext ⊢
    simp only [hread, bind, Except.bind, hpeek, Bool.and_false, Bool.false_eq_true, if_false,
      pass_of_snug hsnug, hname, htext]
    rfl

theorem keyword_from (n : Nested) (indent : Nat) :
    keywordStatement? n indent "from" = some (fun tokens => do
      let (_, tokens) ← pass indent {} tokens
      importFrom indent tokens) :=
  rfl

/-- Names from a module, or all names of the module, are a statement. -/
theorem importFrom_readsLine {module : String} (hm : isModuleName module = true)
    (hfuture : module ≠ "__future__") {names : List ImportName} {wildcard : Bool}
    (hn : if wildcard = true then names = [] else names ≠ []) {pieces : List Piece}
    (hp : pieces = if wildcard = true then [close (.sign (.op .mul))]
      else separated (names.map importPieces)) :
    ReadsLine (close (.word "from") :: spaced (modulePieces module) ++
      apart (.word "import") :: spaced pieces) (.importFrom module names wildcard) := by
  intro token tail ht levels _ indent rest hr b
  have hsome : modulePieces module ≠ [] := modulePieces_ne_nil hm
  obtain ⟨word, more, he, -, hshape, -, hmore⟩ := ht.cons_inv rfl
  obtain ⟨rfl, rfl⟩ := List.cons.inj he
  obtain ⟨before, behind, rfl, hbefore, hbehind⟩ := hmore.append_inv
  obtain ⟨moduleTokens, hmodule, hpassModule⟩ := hbefore.exists_pass hsome
  obtain ⟨next, tail, rfl, hnext, himport, -, htail⟩ := hbehind.cons_inv rfl
  have hisImport : next.isWord "import" = true := isWord_of_word himport "import"
  have hread := importModule_eq_ok hm hmodule indent hnext himport (tail ++ rest)
  have hkeyword := keyword_from (nested levels) indent
  have hpieces : pieces ≠ [] := by
    rw [hp]
    split
    · exact List.cons_ne_nil _ _
    · rename_i hlist
      rw [if_neg hlist] at hn
      obtain ⟨first, others, rfl⟩ := List.exists_cons_of_ne_nil hn
      obtain ⟨part, pieces, hpieces⟩ := exists_separated_imports first others
      rw [hpieces]
      exact List.cons_ne_nil _ _
  obtain ⟨closed, hclosed, hpass⟩ := htail.exists_pass hpieces
  refine ⟨.importFrom module names wildcard,
    statement_of_keyword hr (by decide) hshape hkeyword ?_ b, rfl, fun _ => rfl⟩
  rw [List.append_assoc, List.cons_append]
  simp only [hpassModule, importFrom, hread, bind, Except.bind, passWord_of_snug hnext _ _ _ hisImport,
    hpass, hfuture, if_false]
  subst hp
  cases wildcard with
  | true =>
    obtain rfl : names = [] := hn
    obtain ⟨star, rfl, -, hstar⟩ := hclosed.spells.single_inv
    have hmark : star.isSymbol (.op .mul) = true := isSymbol_of_sign hstar (.op .mul)
    simp only [List.singleton_append, hmark, if_true]
    rfl
  | false =>
    obtain ⟨first, names, rfl⟩ := List.exists_cons_of_ne_nil (show names ≠ [] from hn)
    obtain ⟨part, others, hpieces⟩ := exists_separated_imports first names
    have hnames : Writes closed (separated ((first :: names).map importPieces)) := hclosed
    have hlist := importNames_eq_ok hr names first _ (length_lt_of_writes hr hnames) [] closed hnames
    rw [hpieces] at hnames
    obtain ⟨start, others, rfl, -, hstart, -, -⟩ := hnames.cons_inv rfl
    have hno (symbol : Symbol) : start.isSymbol symbol = false := isSymbol_of_word hstart symbol
    rw [List.cons_append] at hlist ⊢
    simp only [hno, Bool.false_eq_true, if_false, importList, hlist]
    rfl

end Marksheet.Grammar
