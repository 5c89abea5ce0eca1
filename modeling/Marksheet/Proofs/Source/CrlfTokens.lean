import Marksheet.Proofs.Source.CrlfScan

/-!
# Tokens with line ends of two characters

`Token.crlf` is a token with a carriage return before every line feed of its
gap and, in a string, of its text. If no string is left open by them, the tokens of a text with
such line ends are the tokens of the text with their line ends changed
(`tokenize_crlf`).
-/

namespace Marksheet.Source

open Alphabet

theorem feed_not_mem_takeWhile {test : Char → Bool} (h : test '\n' = false) (text : List Char) :
    '\n' ∉ text.takeWhile test := fun hm => by
  rw [List.mem_takeWhile_imp hm] at h
  cases h

theorem clear_front {front text : List Char} (h : front <+: text) (hf : '\n' ∉ front) :
    Clear front.length text := by
  rwa [Clear, ← List.prefix_iff_eq_take.1 h]

/-! ### Cuts of code -/

/-- Runs of text inside of strings, and what ends them: only these can hold line ends. -/
def Lexeme.isInner : Lexeme → Bool
  | .quoteText | .quoteClose | .specText | .broken => true
  | _ => false

/-- All open strings are open by a quotation mark. -/
def Quoted (modes : List Mode) : Prop := ∀ q, .quoted q ∈ modes → isQuote q.quote = true

/-- A cut of a text, and the cut of the text with other line ends. -/
structure Recut (text : List Char) (cut cut' : Cut) : Prop where
  lexeme : cut'.lexeme = cut.lexeme
  modes : cut'.modes = cut.modes
  taken : cut'.taken = crlf cut.taken
  plain : cut.lexeme.isInner = false → '\n' ∉ cut.taken
  front : cut.taken <+: text
  pos : text ≠ [] → cut.taken ≠ []
  quoted : Quoted cut.modes

/-- A cut of characters without line feeds at the head of a text. -/
theorem Recut.of_clear {text : List Char} {count : Nat} (h : Clear count text) (hpos : count ≠ 0)
    (lexeme : Lexeme) {modes : List Mode} (hm : Quoted modes) :
    Recut text ⟨lexeme, text.take count, modes⟩ ⟨lexeme, (crlf text).take count, modes⟩ where
  lexeme := rfl
  modes := rfl
  taken := by rw [h.take_crlf, crlf_eq_self h]
  plain _ := h
  front := List.take_prefix _ _
  pos hne := by simp [List.take_eq_nil_iff, hpos, hne]
  quoted := hm

/-- What a later cut of code sees of a token. -/
structure Seen (token token' : Lexeme × String) : Prop where
  lexeme : token'.1 = token.1
  opens : opensOperand token' = opensOperand token

/-- What later cuts of code see of the two newest tokens. -/
structure Recent.Seen (recent recent' : Recent) : Prop where
  last : Source.Seen recent.last recent'.last
  before : Source.Seen recent.before recent'.before

theorem Quoted.of_cons {mode : Mode} {modes : List Mode} (h : Quoted (mode :: modes)) :
    Quoted modes := fun q hq => h q (List.mem_cons_of_mem _ hq)

theorem Quoted.field {modes : List Mode} (h : Quoted modes) (brackets colons : Nat) :
    Quoted (.field brackets colons :: modes) := fun q hq =>
  (List.mem_cons.1 hq).elim nofun (h q)

theorem Quoted.spec {modes : List Mode} (h : Quoted modes) : Quoted (.spec :: modes) := fun q hq =>
  (List.mem_cons.1 hq).elim nofun (h q)

/-- Two characters are quotation marks in both texts, or in neither. -/
theorem ofOpening_crlf (flags : List Char) {quote : Char} (hq : isQuote quote = true)
    (behind : List Char) :
    (Quotation.ofOpening flags quote (crlf behind)).1 = (Quotation.ofOpening flags quote behind).1 ∧
      (Quotation.ofOpening flags quote (crlf behind)).2.1 =
        (Quotation.ofOpening flags quote behind).2.1 := by
  have hfeed : '\n' ≠ quote := (ne_feed_of_test rfl hq).symm
  have hreturn : '\r' ≠ quote := fun he => absurd (he ▸ hq) (by decide)
  match behind with
  | [] => exact ⟨rfl, rfl⟩
  | [a] =>
    by_cases ha : a = '\n'
    · subst ha
      simp [Quotation.ofOpening, hreturn]
    · rw [crlf_cons ha]
      exact ⟨rfl, rfl⟩
  | a :: b :: rest =>
    by_cases ha : a = '\n'
    · subst ha
      simp [Quotation.ofOpening, hreturn, hfeed]
    · rw [crlf_cons ha]
      by_cases hb : b = '\n'
      · subst hb
        simp [Quotation.ofOpening, hreturn, hfeed]
      · rw [crlf_cons hb]
        simp only [Quotation.ofOpening]
        split <;> exact ⟨rfl, rfl⟩

/-- An opening quotation stands at the head of the text. -/
theorem ofOpening_front (flags : List Char) (quote : Char) (behind : List Char) :
    (Quotation.ofOpening flags quote behind).2.1 <+: quote :: behind ∧
      (Quotation.ofOpening flags quote behind).2.1 ≠ [] ∧
        (∀ c ∈ (Quotation.ofOpening flags quote behind).2.1, c = quote) ∧
          (Quotation.ofOpening flags quote behind).1.quote = quote := by
  simp only [Quotation.ofOpening]
  split
  · split
    · rename_i a b rest h
      simp only [Bool.and_eq_true, decide_eq_true_eq] at h
      obtain ⟨⟨rfl, rfl⟩, -⟩ := h
      exact ⟨⟨rest, rfl⟩, List.cons_ne_nil _ _, by simp, rfl⟩
    · exact ⟨⟨_, rfl⟩, List.cons_ne_nil _ _, by simp, rfl⟩
  · exact ⟨⟨_, rfl⟩, List.cons_ne_nil _ _, by simp, rfl⟩

theorem text_length_ne_zero (symbol : Symbol) : symbol.text.length ≠ 0 := by
  cases symbol with
  | op op => cases op <;> decide
  | augmented op => cases op <;> decide
  | _ => decide

theorem takeNumber_ne_zero {text : List Char} {found : Nat × Lexeme}
    (h : takeNumber text = some found) : found.1 ≠ 0 := by
  have hletter (lower upper : Char) {length : Nat} (hne : length ≠ 0) :
      withLetter lower upper text length ≠ 0 := by
    unfold withLetter
    split <;> omega
  unfold takeNumber at h
  split at h
  · rename_i length hradix
    obtain rfl := Option.some.inj h
    refine hletter _ _ ?_
    unfold radixNumber? at hradix
    split at hradix
    · split at hradix
      · cases hradix
      · obtain rfl := Option.some.inj hradix
        exact Nat.succ_ne_zero _
    · cases hradix
  · simp only [decimalNumber?] at h
    split at h
    · split at h
      · cases h
      · obtain rfl := Option.some.inj h
        exact hletter _ _ (by omega)
    · split at h
      · cases h
      · rename_i hwhole
        split at h
        · obtain rfl := Option.some.inj h
          dsimp only
          split
          · exact Nat.succ_ne_zero _
          · exact hletter _ _ hwhole
        · obtain rfl := Option.some.inj h
          exact hletter _ _ (by omega)

theorem cutSymbol_crlf {modes : List Mode} (hm : Quoted modes) (text : List Char)
    (hbroken : (cutCode.cutSymbol modes (crlf text)).lexeme ≠ .broken) :
    Recut text (cutCode.cutSymbol modes text) (cutCode.cutSymbol modes (crlf text)) := by
  unfold cutCode.cutSymbol at hbroken ⊢
  rw [takeSymbol_crlf] at hbroken ⊢
  cases hs : takeSymbol text with
  | none => simp [hs] at hbroken
  | some symbol =>
    obtain ⟨rest, rfl⟩ := exists_of_takeSymbol hs
    have hclear : Clear symbol.text.length (symbol.text.toList ++ rest) := by
      rw [Clear, ← String.length_toList, List.take_left]
      exact feed_not_mem_symbol symbol
    refine .of_clear hclear (text_length_ne_zero symbol) _ ?_
    split
    · have houter := Quoted.of_cons hm
      split
      all_goals exact houter.field _ _
    · exact hm

/-- A cut of one character. -/
theorem Recut.single {c : Char} (hc : c ≠ '\n') (rest : List Char) (lexeme : Lexeme)
    {modes : List Mode} (hm : Quoted modes) :
    Recut (c :: rest) ⟨lexeme, [c], modes⟩ ⟨lexeme, [c], modes⟩ := by
  have hone : Clear 1 (c :: rest) := clear_succ hc (clear_zero _)
  have hcut := Recut.of_clear hone Nat.one_ne_zero lexeme hm
  rwa [crlf_cons hc] at hcut

theorem cutField_crlf {colons : Nat} {outer : List Mode} (hm : Quoted (.field 0 colons :: outer))
    {recent recent' : Recent} (hr : recent.Seen recent') {c : Char} (hc : c ≠ '\n')
    {rest : List Char}
    (hbroken : (cutCode.cutField (.field 0 colons :: outer) recent' (c :: crlf rest) colons outer c
      (crlf rest)).lexeme ≠ .broken) :
    Recut (c :: rest)
      (cutCode.cutField (.field 0 colons :: outer) recent (c :: rest) colons outer c rest)
      (cutCode.cutField (.field 0 colons :: outer) recent' (c :: crlf rest) colons outer c
        (crlf rest)) := by
  have hsymbol := cutSymbol_crlf hm (c :: rest)
  have houter := hm.of_cons
  have hequal : (crlf rest).head? = some '=' ↔ rest.head? = some '=' := by
    simpa [startsWith] using startsWith_crlf '=' '=' (by decide) (by decide) rest
  have hnotequal : ((crlf rest).head? != some '=') = (rest.head? != some '=') := by
    rw [Bool.eq_iff_iff, bne_iff_ne, bne_iff_ne, ne_eq, ne_eq, hequal]
  rw [crlf_cons hc] at hsymbol
  unfold cutCode.cutField at hbroken ⊢
  simp only [hequal, hnotequal, hr.last.lexeme, hr.before.opens] at hbroken ⊢
  split
  · exact .single hc rest _ houter
  · rename_i hbrace
    simp only [hbrace, if_false] at hbroken
    split
    · rename_i hmark
      simp only [hmark, if_true] at hbroken
      cases rest with
      | nil => exact absurd rfl hbroken
      | cons letter more =>
        by_cases hletter : ('a' ≤ letter && letter ≤ 'z') = true
        · have hfeed := ne_feed_of_test (p := fun c => 'a' ≤ c && c ≤ 'z') rfl hletter
          have htwo : Clear 2 (c :: letter :: more) := clear_succ hc (clear_succ hfeed (clear_zero _))
          have hcut := Recut.of_clear htwo (by decide) .conversion hm
          rw [crlf_cons hc] at hcut
          rw [crlf_cons hfeed] at hcut ⊢
          simp only [hletter, if_true]
          exact hcut
        · obtain ⟨d, behind, hbehind, hlike⟩ := exists_crlf_cons letter more
          have hd := hlike (fun c => 'a' ≤ c && c ≤ 'z') rfl
          rw [hbehind] at hbroken
          simp only [hd, hletter] at hbroken
          exact absurd rfl hbroken
    · rename_i hmark
      simp only [hmark] at hbroken
      split
      · split
        · exact .single hc rest _ (houter.field _ _)
        · split
          · rename_i hwalrus
            simp only [Bool.and_eq_true, decide_eq_true_eq] at hwalrus
            have hone : Clear 1 rest := by
              rw [Clear, List.take_one, hwalrus.1.1]
              decide
            have hcut := Recut.of_clear (clear_succ hc hone) (by decide) (.symbol .walrus) hm
            rwa [crlf_cons hc] at hcut
          · exact .single hc rest _ houter.spec
      · rename_i hcolon
        simp only [hcolon] at hbroken
        exact hsymbol hbroken

/-- No token of code begins with a line end. -/
theorem code_return (modes : List Mode) (recent : Recent) (rest flags : List Char) :
    (cutCode.code modes recent ('\r' :: rest) flags).lexeme = .broken := by
  have hword : beginsWord '\r' = false := by decide
  have hnumber : takeNumber ('\r' :: rest) = none :=
    takeNumber_eq_none (by decide) fun he => absurd he (by decide)
  have hsymbol : (cutCode.cutSymbol modes ('\r' :: rest)).lexeme = .broken := rfl
  unfold cutCode.code
  simp only [hword, hnumber, Bool.false_eq_true, if_false]
  split
  · unfold cutCode.cutField
    simpa using hsymbol
  · exact hsymbol

theorem code_crlf {modes : List Mode} (hm : Quoted modes) {recent recent' : Recent}
    (hr : recent.Seen recent') (text flags : List Char)
    (hbroken : (cutCode.code modes recent' (crlf text) flags).lexeme ≠ .broken) :
    Recut text (cutCode.code modes recent text flags)
      (cutCode.code modes recent' (crlf text) flags) := by
  cases text with
  | nil => exact ⟨rfl, rfl, rfl, fun _ => List.not_mem_nil, List.nil_prefix, absurd rfl, hm⟩
  | cons c rest =>
    have hsymbol := cutSymbol_crlf hm (c :: rest)
    by_cases hc : c = '\n'
    · rw [hc, crlf_feed] at hbroken
      exact absurd (code_return _ _ _ _) hbroken
    · have hone : Clear 1 (c :: rest) := clear_succ hc (clear_zero _)
      have hnumber := takeNumber_crlf (c :: rest)
      rw [crlf_cons hc] at hsymbol hbroken hnumber ⊢
      unfold cutCode.code at hbroken ⊢
      simp only [hnumber] at hbroken ⊢
      by_cases hword : beginsWord c = true
      · have hmore : (crlf rest).takeWhile continuesWord = rest.takeWhile continuesWord :=
          takeWhile_crlf rfl rfl rest
        have hplain : '\n' ∉ c :: rest.takeWhile continuesWord := by
          rw [List.mem_cons, not_or]
          exact ⟨Ne.symm hc, feed_not_mem_takeWhile rfl rest⟩
        simp only [hword, if_true, hmore, hr.last.lexeme] at hbroken ⊢
        refine ⟨rfl, rfl, (crlf_eq_self hplain).symm, fun _ => hplain,
          (List.prefix_cons_inj c).2 (List.takeWhile_prefix _), fun _ => List.cons_ne_nil _ _, ?_⟩
        dsimp only
        split
        · split
          · exact hm.of_cons.field _ _
          · exact hm
        · exact hm
      · simp only [hword, Bool.false_eq_true, if_false] at hbroken ⊢
        cases hn : takeNumber (c :: rest) with
        | some found =>
          rw [← crlf_cons hc]
          exact .of_clear (clear_takeNumber hn) (takeNumber_ne_zero hn) found.2 hm
        | none =>
          simp only [hn] at hbroken ⊢
          rcases modes with _ | ⟨_ | ⟨_ | brackets, colons⟩ | _, outer⟩
          case cons.field.zero => exact cutField_crlf hm hr hc hbroken
          all_goals exact hsymbol hbroken

theorem cutCode_crlf {modes : List Mode} (hm : Quoted modes) {recent recent' : Recent}
    (hr : recent.Seen recent') (text : List Char)
    (hbroken : (cutCode modes recent' (crlf text)).lexeme ≠ .broken) :
    Recut text (cutCode modes recent text) (cutCode modes recent' (crlf text)) := by
  have hflags : (crlf text).takeWhile isStringFlag = text.takeWhile isStringFlag :=
    takeWhile_crlf rfl rfl text
  have hplain : '\n' ∉ text.takeWhile isStringFlag := feed_not_mem_takeWhile rfl text
  have hfront := List.takeWhile_prefix (l := text) isStringFlag
  have hclear := clear_front hfront hplain
  unfold cutCode at hbroken ⊢
  simp only [hflags, hclear.drop_crlf] at hbroken ⊢
  cases hrest : text.drop (text.takeWhile isStringFlag).length with
  | nil =>
    rw [hrest] at hbroken
    exact code_crlf hm hr text _ hbroken
  | cons quote behind =>
    rw [hrest] at hbroken
    by_cases hq : isQuote quote = true
    · have hfeed := ne_feed_of_test rfl hq
      obtain ⟨⟨more, hmore⟩, hne, hmarks, hquote⟩ :=
        ofOpening_front (text.takeWhile isStringFlag) quote behind
      obtain ⟨hquotation, hsame⟩ := ofOpening_crlf (text.takeWhile isStringFlag) hq behind
      rw [crlf_cons hfeed]
      simp only [hq, if_true, hquotation, hsame]
      have hnone : '\n' ∉ text.takeWhile isStringFlag ++
          (Quotation.ofOpening (text.takeWhile isStringFlag) quote behind).2.1 := by
        rw [List.mem_append, not_or]
        exact ⟨hplain, fun hm => hfeed (hmarks _ hm).symm⟩
      refine ⟨rfl, rfl, (crlf_eq_self hnone).symm, fun _ => hnone, ⟨more, ?_⟩, ?_, ?_⟩
      · rw [List.append_assoc, hmore, ← hrest]
        nth_rewrite 1 [List.prefix_iff_eq_take.1 hfront]
        exact List.take_append_drop _ _
      · exact fun _ he => hne (List.append_eq_nil_iff.1 he).2
      · intro q hq'
        rcases List.mem_cons.1 hq' with he | hq'
        · cases he
          rw [hquote]
          exact hq
        · exact hm q hq'
    · obtain ⟨d, more, hmore, hlike⟩ := exists_crlf_cons quote behind
      have hd := hlike isQuote rfl
      rw [hmore] at hbroken ⊢
      simp only [hd, hq] at hbroken ⊢
      exact code_crlf hm hr text (text.takeWhile isStringFlag) hbroken

/-! ### Cuts of strings -/

open Quotation in
theorem cutQuoted_crlf {q : Quotation} {outer : List Mode} (hm : Quoted (.quoted q :: outer))
    {text : List Char} (hreturn : '\r' ∉ text)
    (hbroken : (cutQuoted q outer (crlf text)).lexeme ≠ .broken) :
    Recut text (cutQuoted q outer text) (cutQuoted q outer (crlf text)) := by
  have hempty (content : List Char) : (crlf content).isEmpty = content.isEmpty := by
    cases content with
    | nil => rfl
    | cons c content => exact List.isEmpty_eq_false_iff.2 (crlf_ne_nil (List.cons_ne_nil c content))
  have hq : isQuote q.quote = true := hm q List.mem_cons_self
  have hscan := scan_crlf hq hreturn
  have houter := hm.of_cons
  have htext {content : List Char} (hne : (!content.isEmpty) = true) (hfront : content <+: text) :
      Recut text ⟨.quoteText, content, .quoted q :: outer⟩
        ⟨.quoteText, crlf content, .quoted q :: outer⟩ :=
    ⟨rfl, rfl, rfl, nofun, hfront, fun _ => by simpa using hne, hm⟩
  unfold cutQuoted at hbroken ⊢
  generalize q.scan text = run at hscan hbroken ⊢
  generalize q.scan (crlf text) = run' at hscan hbroken ⊢
  cases hscan with
  | @closed content mark _ _ hmark h =>
    simp only [hempty]
    split
    · exact htext ‹_› ((List.prefix_append _ _).trans h)
    · rename_i hcontent
      obtain rfl : content = [] := by simpa using hcontent
      exact ⟨rfl, rfl, rfl, nofun, h, fun _ => hmark, houter⟩
  | @field content _ _ h =>
    simp only [hempty]
    split
    · exact htext ‹_› ((List.prefix_append _ _).trans h)
    · rename_i hcontent
      obtain rfl : content = [] := by simpa using hcontent
      obtain ⟨rest, rfl⟩ : ∃ rest, '\x7b' :: rest = text := h
      have hone : Clear 1 ('\x7b' :: rest) := clear_succ (by decide) (clear_zero _)
      exact .of_clear hone Nat.one_ne_zero .fieldOpen (hm.field _ _)
  | @unclosed content _ _ h =>
    simp only [hempty] at hbroken ⊢
    split
    · exact htext ‹_› h
    · rename_i hcontent
      simp only [hcontent] at hbroken
      exact absurd rfl hbroken
  | broken => exact absurd rfl hbroken

/-- A cut of a format specification. -/
theorem cutSpec_crlf {outer : List Mode} (hm : Quoted outer) {text : List Char} :
    Recut text (cutSpec outer text) (cutSpec outer (crlf text)) := by
  cases text with
  | nil => exact ⟨rfl, rfl, rfl, fun _ => List.not_mem_nil, List.nil_prefix, absurd rfl, hm⟩
  | cons c rest =>
    have hrun := takeWhile_crlf_of_pos (p := fun d => d != '\x7b' && d != '\x7d') rfl rfl (c :: rest)
    by_cases hbrace : c = '\x7b' ∨ c = '\x7d'
    · have hc : c ≠ '\n' := by rcases hbrace with rfl | rfl <;> decide
      rw [crlf_cons hc]
      unfold cutSpec
      rcases hbrace with rfl | rfl
      · exact .single hc rest _ (hm.spec.field _ _)
      · exact .single hc rest _ hm
    · rw [not_or] at hbrace
      obtain ⟨d, more, hmore, hlike⟩ := exists_crlf_cons c rest
      have hopen := hlike (fun c => decide (c = '\x7b')) rfl
      have hclose := hlike (fun c => decide (c = '\x7d')) rfl
      simp only [decide_eq_decide, hbrace, iff_false] at hopen hclose
      rw [hmore] at hrun ⊢
      simp only [cutSpec, hbrace, hopen, hclose, if_false, hrun]
      exact ⟨rfl, rfl, rfl, nofun, List.takeWhile_prefix _, fun _ => by simp [hbrace], hm.spec⟩

/-- The next token is cut from the text with other line ends as before, if no string is left open. -/
theorem nextCut_crlf {modes : List Mode} (hm : Quoted modes) {recent recent' : Recent}
    (hr : recent.Seen recent') {text : List Char} (hreturn : '\r' ∉ text)
    (hbroken : (nextCut modes recent' (crlf text)).lexeme ≠ .broken) :
    Recut text (nextCut modes recent text) (nextCut modes recent' (crlf text)) := by
  rcases modes with _ | ⟨_ | _ | _, outer⟩
  · exact cutCode_crlf hm hr text hbroken
  · exact cutQuoted_crlf hm hreturn hbroken
  · exact cutCode_crlf hm hr text hbroken
  · exact cutSpec_crlf hm.of_cons

theorem gapBefore_crlf (modes : List Mode) (here : Position) {text : List Char}
    (hreturn : '\r' ∉ text) :
    gapBefore modes here (crlf text) =
      (crlfGap (gapBefore modes here text).1, (gapBefore modes here text).2.1,
        crlf (gapBefore modes here text).2.2) := by
  have hcode := takeGap_crlf none here text nofun hreturn
  rcases modes with _ | ⟨_ | _ | _, outer⟩
  · exact hcode
  · rfl
  · exact hcode
  · rfl

theorem takeGap_suffix (comment : Option (List Char)) (here : Position) (text : List Char) :
    (takeGap comment here text).2.2 <:+ text := by
  have htrans {c : Char} {found rest : List Char} (h : found <:+ rest) : found <:+ c :: rest :=
    h.trans (List.suffix_cons c rest)
  fun_induction takeGap comment here text with
  | case2 _ _ _ _ _ _ htaken ih => exact htrans (by rwa [htaken] at ih)
  | case3 _ _ _ _ _ _ _ _ _ htaken ih => exact htrans (by rwa [htaken] at ih)
  | case6 _ _ _ _ _ htaken ih => exact htrans (htrans (by rwa [htaken] at ih))
  | case7 _ _ _ _ _ htaken ih => exact htrans (htrans (htrans (by rwa [htaken] at ih)))
  | case1 | case5 | case15 => exact List.suffix_rfl
  | case8 => exact List.nil_suffix
  | _ =>
    rename_i ih
    exact htrans ih

/-- What follows a gap is the end of the text. -/
theorem gapBefore_suffix (modes : List Mode) (here : Position) (text : List Char) :
    (gapBefore modes here text).2.2 <:+ text := by
  have hcode := takeGap_suffix none here text
  rcases modes with _ | ⟨_ | _ | _, outer⟩
  · exact hcode
  · exact List.suffix_rfl
  · exact hcode
  · exact List.suffix_rfl

/-! ### Tokens -/

namespace Token

/-- The token with a carriage return before every line feed. -/
def crlf (token : Token) : Token :=
  { token with
    gap := crlfGap token.gap
    text := if token.lexeme.isInner then crlfText token.text else token.text }

/-- Only a token inside of a string holds line ends. -/
def Plain (token : Token) : Prop := token.lexeme.isInner = false → '\n' ∉ token.text.toList

end Token

/-- Only words and a few signs are seen, and those are as before. -/
theorem Seen.of_crlf {lexeme : Lexeme} {taken : List Char}
    (h : lexeme.isInner = false → '\n' ∉ taken) :
    Seen (lexeme, String.ofList taken) (lexeme, String.ofList (crlf taken)) where
  lexeme := rfl
  opens := by
    cases hinner : lexeme.isInner with
    | false => rw [crlf_eq_self (h hinner)]
    | true => cases lexeme <;> first | rfl | cases hinner

theorem Token.crlf_mk {lexeme : Lexeme} {taken : List Char}
    (h : lexeme.isInner = false → '\n' ∉ taken) (gap : List Trivia) (start behind : Position) :
    Token.crlf ⟨gap, lexeme, String.ofList taken, start, behind⟩ =
      ⟨crlfGap gap, lexeme, String.ofList (Source.crlf taken), start, behind⟩ := by
  cases hinner : lexeme.isInner with
  | false => simp [Token.crlf, hinner, crlf_eq_self (h hinner)]
  | true => simp [Token.crlf, hinner, crlfText]

theorem tokensFrom_crlf (fuel : Nat) :
    ∀ (modes : List Mode) (recent recent' : Recent) (here : Position) (text : List Char)
      (fuel' : Nat), text.length < fuel → (crlf text).length < fuel' → '\r' ∉ text → Quoted modes →
        recent.Seen recent' →
          (∀ token ∈ tokensFrom fuel' modes recent' here (crlf text), token.lexeme ≠ .broken) →
            tokensFrom fuel' modes recent' here (crlf text) =
                (tokensFrom fuel modes recent here text).map Token.crlf ∧
              ∀ token ∈ tokensFrom fuel modes recent here text, token.Plain := by
  induction fuel with
  | zero => exact fun _ _ _ _ text _ hf => absurd hf (Nat.not_lt_zero _)
  | succ fuel ih =>
    intro modes recent recent' here text fuel' hf hf' hreturn hm hr hbroken
    obtain ⟨fuel', rfl⟩ := Nat.exists_eq_succ_of_ne_zero (Nat.ne_zero_of_lt hf')
    have hgap := gapBefore_crlf modes here hreturn
    have hsuffix := gapBefore_suffix modes here text
    have hsuffix' := gapBefore_suffix modes here (crlf text)
    unfold tokensFrom at hbroken ⊢
    rw [hgap] at hsuffix' hbroken ⊢
    generalize gapBefore modes here text = found at hsuffix hsuffix' hbroken ⊢
    obtain ⟨gap, start, behind⟩ := found
    dsimp only at hsuffix hsuffix' hbroken ⊢
    cases behind with
    | nil =>
      cases modes with
      | nil => exact ⟨rfl, by simp [Token.Plain]⟩
      | cons mode outer => exact absurd rfl (hbroken _ List.mem_cons_self)
    | cons c rest =>
      obtain ⟨d, more, hmore, -⟩ := exists_crlf_cons c rest
      have hbehind : '\r' ∉ c :: rest := mt hsuffix.mem hreturn
      have hcut := nextCut_crlf hm hr hbehind
      rw [hmore] at hcut hbroken ⊢
      dsimp only at hbroken ⊢
      obtain ⟨hlexeme, hmodes, htaken, hplain, hfront, hpos, hquoted⟩ :=
        hcut (hbroken _ List.mem_cons_self)
      generalize nextCut modes recent (c :: rest) = cut at *
      generalize nextCut modes recent' (d :: more) = cut' at *
      obtain ⟨lexeme, taken, modes⟩ := cut'
      dsimp only at hlexeme hmodes htaken hbroken ⊢
      subst hlexeme hmodes htaken
      rw [← hmore, drop_crlf_front hfront, advance_crlf] at hbroken ⊢
      have hlength := hsuffix.length_le
      have hlength' := hsuffix'.length_le
      have hrest : ((c :: rest).drop cut.taken.length).length < (c :: rest).length := by
        have htaken := List.length_pos_iff.2 (hpos (List.cons_ne_nil c rest))
        rw [List.length_drop, List.length_cons]
        omega
      have hrest' : (crlf ((c :: rest).drop cut.taken.length)).length < (crlf (c :: rest)).length := by
        have htaken := List.length_pos_iff.2 (crlf_ne_nil (hpos (List.cons_ne_nil c rest)))
        obtain ⟨more, hmore⟩ := hfront
        rw [← hmore, List.drop_left, crlf_append, List.length_append]
        omega
      obtain ⟨hsame, hplains⟩ := ih cut.modes ⟨(cut.lexeme, String.ofList cut.taken), recent.last⟩
        ⟨(cut.lexeme, String.ofList (crlf cut.taken)), recent'.last⟩ (start.advance cut.taken)
        ((c :: rest).drop cut.taken.length) fuel' (by omega) (by omega) (mt List.mem_of_mem_drop hbehind)
        hquoted ⟨.of_crlf hplain, hr.last⟩ (fun token ht => hbroken token (List.mem_cons_of_mem _ ht))
      rw [hsame, List.map_cons, Token.crlf_mk hplain]
      exact ⟨rfl, List.forall_mem_cons.2 ⟨by simpa [Token.Plain] using hplain, hplains⟩⟩

/-- If no string is left open, the tokens of a text with line ends of two characters are those of the
text, with their line ends changed. -/
theorem tokenize_crlf {source : String} (hreturn : '\r' ∉ source.toList)
    (hbroken : ∀ token ∈ tokenize (crlfText source), token.lexeme ≠ .broken) :
    tokenize (crlfText source) = (tokenize source).map Token.crlf ∧
      ∀ token ∈ tokenize source, token.Plain := by
  have htokens := tokensFrom_crlf (source.length + 1) [] {} {} .first source.toList
    ((crlfText source).length + 1) (Nat.lt_succ_self _)
    (by rw [crlfText, String.length_ofList]; exact Nat.lt_succ_self _) hreturn nofun
    ⟨⟨rfl, rfl⟩, ⟨rfl, rfl⟩⟩
  unfold tokenize at hbroken ⊢
  rw [show (crlfText source).toList = crlf source.toList from String.toList_ofList] at hbroken ⊢
  exact htokens hbroken

end Marksheet.Source
