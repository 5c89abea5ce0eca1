import Mathlib
import Marksheet.Json.Reader
import Marksheet.Proofs.Decimal.Numeral

/-!
# Reading what was written

A value without foreign numbers is read back from its form on several lines
(`value?_spread`). Its tokens are cut from the text one after the other, each up
to a character that cannot continue it, and the value is put together from them.
-/

namespace Marksheet.Json

open Source.Alphabet (isDigit)

/-! ### Texts in quotes -/

/-- A hexadecimal digit counts what it shows. -/
theorem digitValue_hexDigit : ∀ value < 16, Decimal.digitValue (hexDigit value) = value := by
  decide

/-- Two hexadecimal digits behind two zeros write a small number. -/
theorem unitValue?_hexDigits {code : Nat} (h : code < 256) :
    unitValue? ['0', '0', hexDigit (code / 16), hexDigit (code % 16)] = some code := by
  have hhigh := digitValue_hexDigit (code / 16) (by omega)
  have hlow := digitValue_hexDigit (code % 16) (by omega)
  have hzero : Decimal.digitValue '0' = 0 := by decide
  have hall : (['0', '0', hexDigit (code / 16), hexDigit (code % 16)].all fun c =>
      Decimal.digitValue c < 16) = true := by
    simp only [List.all_cons, List.all_nil, hhigh, hlow, hzero]
    simp
    omega
  rw [unitValue?, if_pos hall]
  simp only [Decimal.digitsValue, List.foldl_cons, List.foldl_nil, hhigh, hlow, hzero]
  congr 1
  omega

theorem quotedUnits_quote (rest : List Char) : quotedUnits ('\"' :: rest) = some ([], rest) := rfl

theorem quotedUnits_code (a b c d : Char) (rest : List Char) :
    quotedUnits ('\\' :: 'u' :: a :: b :: c :: d :: rest) = do
      let unit ← unitValue? [a, b, c, d]
      let (units, rest) ← quotedUnits rest
      return (unit :: units, rest) := rfl

/-- An escape is read as the code of the character that it stands for. -/
theorem quotedUnits_escape {letter : Char} {code : Nat} (hu : letter ≠ 'u')
    (h : escapeValue? letter = some code) (rest : List Char) :
    quotedUnits ('\\' :: letter :: rest) =
      (quotedUnits rest).map fun (units, rest) => (code :: units, rest) := by
  rw [quotedUnits, h]
  · cases quotedUnits rest <;> rfl
  · intro a b c d tail heq
    exact absurd heq hu

/-- A character is written by a letter that stands for it, by its code, or as it is. -/
theorem escapeChar_cases (c : Char) :
    (∃ letter, letter ≠ 'u' ∧ escapeValue? letter = some c.toNat ∧
        escapeChar c = ['\\', letter]) ∨
      (c.toNat < 32 ∧ escapeChar c =
        ['\\', 'u', '0', '0', hexDigit (c.toNat / 16), hexDigit (c.toNat % 16)]) ∨
      c ≠ '\"' ∧ c ≠ '\\' ∧ 32 ≤ c.toNat ∧ escapeChar c = [c] := by
  unfold escapeChar
  split_ifs with hquote hslash hline hreturn htab hback hfeed hcontrol
  · exact .inl ⟨'\"', by decide, by rw [hquote]; rfl, rfl⟩
  · exact .inl ⟨'\\', by decide, by rw [hslash]; rfl, rfl⟩
  · exact .inl ⟨'n', by decide, by rw [hline]; rfl, rfl⟩
  · exact .inl ⟨'r', by decide, by rw [hreturn]; rfl, rfl⟩
  · exact .inl ⟨'t', by decide, by rw [htab]; rfl, rfl⟩
  · exact .inl ⟨'b', by decide, by rw [hback]; rfl, rfl⟩
  · exact .inl ⟨'f', by decide, by rw [hfeed]; rfl, rfl⟩
  · exact .inr (.inl ⟨hcontrol, rfl⟩)
  · exact .inr (.inr ⟨hquote, hslash, Nat.le_of_not_lt hcontrol, rfl⟩)

/-- A written character is read as its code. -/
theorem quotedUnits_escapeChar (c : Char) (rest : List Char) :
    quotedUnits (escapeChar c ++ rest) =
      (quotedUnits rest).map fun (units, rest) => (c.toNat :: units, rest) := by
  rcases escapeChar_cases c with
    ⟨letter, hu, hvalue, hc⟩ | ⟨hcontrol, hc⟩ | ⟨hquote, hslash, hplain, hc⟩
  · rw [hc]
    exact quotedUnits_escape hu hvalue rest
  · simp only [hc, List.cons_append, List.nil_append]
    rw [quotedUnits_code, unitValue?_hexDigits (by omega)]
    cases quotedUnits rest <;> rfl
  · have hcontrol : ¬ c.toNat < 32 := by omega
    rw [hc, List.cons_append, List.nil_append, quotedUnits]
    · simp only [hslash, hcontrol]
      cases quotedUnits rest <;> rfl
    · exact hquote
    · intro a b d e tail heq
      exact absurd heq hslash
    · intro letter tail heq
      exact absurd heq hslash

/-- A quoted text is read as the codes of its characters. -/
theorem quotedUnits_append (text rest : List Char) :
    quotedUnits (text.flatMap escapeChar ++ '\"' :: rest) = some (text.map Char.toNat, rest) := by
  induction text with
  | nil => exact quotedUnits_quote rest
  | cons c tail ih =>
    rw [List.flatMap_cons, List.append_assoc, quotedUnits_escapeChar, ih]
    rfl

/-- A character is no half of a pair. -/
theorem not_pair (c : Char) : opensPair c.toNat = false ∧ closesPair c.toNat = false := by
  have hvalid : c.toNat < 0xD800 ∨ 0xDFFF < c.toNat := by
    rcases c.valid with h | ⟨h, -⟩
    · exact .inl h
    · exact .inr h
  unfold opensPair closesPair
  constructor
  · rw [Bool.and_eq_false_iff, decide_eq_false_iff_not, decide_eq_false_iff_not]
    omega
  · rw [Bool.and_eq_false_iff, decide_eq_false_iff_not, decide_eq_false_iff_not]
    omega

/-- The codes of characters stand for these. -/
theorem unitChars_map (text : List Char) : unitChars (text.map Char.toNat) = (text, true) := by
  induction text with
  | nil => rfl
  | cons c tail ih =>
    obtain ⟨hopens, hcloses⟩ := not_pair c
    cases tail with
    | nil => simp [unitChars, hopens, hcloses]
    | cons d others =>
      rw [List.map_cons] at ih
      simp only [List.map_cons]
      rw [unitChars, ih]
      simp [hopens, hcloses]

/-! ### One token -/

/-- Nothing here continues a number. -/
def Ends (rest : List Char) : Prop :=
  ∀ c ∈ rest.head?, isDigit c = false ∧ c ≠ '.' ∧ c ≠ 'e' ∧ c ≠ 'E'

theorem Ends.append {text rest : List Char} (htext : Ends text) (hrest : Ends rest) :
    Ends (text ++ rest) := by
  cases text with
  | nil => exact hrest
  | cons c tail => exact htext

theorem ends_cons {c : Char} {rest : List Char}
    (h : isDigit c = false ∧ c ≠ '.' ∧ c ≠ 'e' ∧ c ≠ 'E') : Ends (c :: rest) := by
  intro d hd
  cases hd
  exact h

theorem wholeDigits?_digits (n : Nat) {rest : List Char} (h : Ends rest) :
    wholeDigits? (Decimal.digits n ++ rest) = some (Decimal.digits n, rest) := by
  by_cases hzero : ∃ tail, Decimal.digits n = '0' :: tail
  · obtain ⟨tail, htail⟩ := hzero
    obtain ⟨-, rfl⟩ := Decimal.eq_zero_of_digits htail
    rw [htail]
    rfl
  · obtain ⟨c, tail, htail⟩ := List.exists_cons_of_ne_nil (Decimal.digits_ne_nil n)
    have hspan : Decimal.spanDigits (Decimal.digits n ++ rest) = (Decimal.digits n, rest) :=
      Decimal.spanDigits_append (fun c hc => Decimal.isDigit_of_mem_digits hc)
        fun c hc => (h c hc).1
    rw [htail] at hspan hzero ⊢
    rw [List.cons_append, wholeDigits?, someDigits?, ← List.cons_append, hspan]
    intro behind heq
    exact hzero ⟨tail, by rw [(List.cons.inj heq).1]⟩

/-- The digits of a number are read as that number. -/
theorem number?_digits (n : Nat) {rest : List Char} (h : Ends rest) :
    number? (Decimal.digits n ++ rest) = some (.nat n, rest) := by
  have hfraction : fractionDigits? rest = some ([], rest) := by
    cases rest with
    | nil => rfl
    | cons c tail =>
      rw [fractionDigits?]
      intro behind heq
      exact (h c rfl).2.1 (List.cons.inj heq).1
  have hpower : powerDigits? rest = some ([], rest) := by
    cases rest with
    | nil => rfl
    | cons c tail =>
      have hmark : ¬ (c = 'e' ∨ c = 'E') := not_or.2 (h c rfl).2.2
      simp [powerDigits?, hmark]
  simp [number?, wholeDigits?_digits n h, hfraction, hpower, Decimal.digitsValue_digits]

/-- A number is a token. -/
theorem token?_digits (n : Nat) {rest : List Char} (h : Ends rest) :
    token? (Decimal.digits n ++ rest) = some (.scalar (.nat n), rest) := by
  have hnumber := number?_digits n h
  obtain ⟨c, tail, htail⟩ := List.exists_cons_of_ne_nil (Decimal.digits_ne_nil n)
  have hc : isDigit c = true := Decimal.isDigit_of_mem_digits (htail ▸ List.mem_cons_self)
  rw [htail, List.cons_append] at hnumber ⊢
  rw [token?, hnumber]
  · rfl
  -- none of the other tokens begins with a digit
  all_goals
    intro behind heq
    rw [(List.cons.inj heq).1] at hc
    exact absurd hc (by decide)

theorem token?_opened (inside : List Char) :
    token? ('\"' :: inside) = do
      let (units, rest) ← quotedUnits inside
      let (chars, whole) := unitChars units
      return (.quoted (String.ofList chars) whole, rest) := rfl

/-- A quoted text is a token. -/
theorem token?_quote (text rest : List Char) :
    token? ('\"' :: text.flatMap escapeChar ++ '\"' :: rest) =
      some (.quoted (String.ofList text) true, rest) := by
  rw [List.cons_append, token?_opened, quotedUnits_append]
  simp [unitChars_map]

/-! ### Texts that are cut into tokens -/

/-- A text is cut into these tokens wherever something follows that may. -/
structure Cut (follows : List Char → Prop) (text : List Char) (tokens : List Token) : Prop where
  short : tokens.length ≤ text.length
  cut : ∀ rest, follows rest → ∀ fuel found, tokensFrom fuel rest = some found →
    tokensFrom (fuel + tokens.length) (text ++ rest) = some (tokens ++ found)

/-- Whatever follows. -/
def Always (_ : List Char) : Prop := True

/-- Blanks make no difference. -/
theorem tokensFrom_gap {gap : List Char} (h : ∀ c ∈ gap, isGap c = true) (fuel : Nat)
    (rest : List Char) : tokensFrom fuel (gap ++ rest) = tokensFrom fuel rest := by
  have hdrop : (gap ++ rest).dropWhile isGap = rest.dropWhile isGap :=
    List.dropWhile_append_of_pos h
  cases fuel with
  | zero => rw [tokensFrom, tokensFrom, hdrop]
  | succ fuel => rw [tokensFrom, tokensFrom, hdrop]

namespace Cut

variable {follows later : List Char → Prop} {text more : List Char} {tokens others : List Token}

theorem gap (h : ∀ c ∈ text, isGap c = true) : Cut Always text [] where
  short := Nat.zero_le _
  cut rest _ fuel found hfound := by
    rw [tokensFrom_gap h]
    exact hfound

theorem token {token : Token} {c : Char} (hgap : isGap c = false)
    (h : ∀ rest, follows rest → token? (c :: text ++ rest) = some (token, rest)) :
    Cut follows (c :: text) [token] where
  short := by simp
  cut rest hrest fuel found hfound := by
    have hdrop : (c :: text ++ rest).dropWhile isGap = c :: text ++ rest := by
      simp [hgap]
    rw [List.length_singleton, tokensFrom, hdrop]
    simp only [List.cons_append] at h ⊢
    rw [h rest hrest]
    simp [hfound]

/-- Two texts one after the other, if the second may follow the first. -/
theorem append (hfirst : Cut follows text tokens) (hsecond : Cut later more others)
    (h : ∀ rest, later rest → follows (more ++ rest)) :
    Cut later (text ++ more) (tokens ++ others) where
  short := by
    have hshort := hfirst.short
    have hshort' := hsecond.short
    simp only [List.length_append]
    omega
  cut rest hrest fuel found hfound := by
    have hmore := hsecond.cut rest hrest fuel found hfound
    have hall := hfirst.cut (more ++ rest) (h rest hrest) _ _ hmore
    rw [List.append_assoc, List.append_assoc, List.length_append, Nat.add_comm tokens.length,
      ← Nat.add_assoc]
    exact hall

theorem mono (h : Cut follows text tokens) (himp : ∀ rest, later rest → follows rest) :
    Cut later text tokens :=
  ⟨h.short, fun rest hrest => h.cut rest (himp rest hrest)⟩

end Cut

/-! ### The tokens of a value -/

mutual

/-- The tokens of a value. -/
def valueTokens : Value → List Token
  | .null => [.scalar .null]
  | .bool value => [.scalar (.bool value)]
  | .nat value => [.scalar (.nat value)]
  | .number text => [.scalar (.number text)]
  | .string text => [.quoted text true]
  | .array items => .openArray :: itemTokens items ++ [.closeArray]
  | .object members => .openObject :: memberTokens members ++ [.closeObject]

/-- The tokens of items, with commas between them. -/
def itemTokens : List Value → List Token
  | [] => []
  | [item] => valueTokens item
  | item :: next :: rest => valueTokens item ++ .comma :: itemTokens (next :: rest)

/-- The tokens of members, with commas between them. -/
def memberTokens : List (String × Value) → List Token
  | [] => []
  | [(key, value)] => .quoted key true :: .colon :: valueTokens value
  | (key, value) :: next :: rest =>
    .quoted key true :: .colon :: valueTokens value ++ .comma :: memberTokens (next :: rest)

end

mutual

/-- There are no numbers but natural ones in a value. -/
def Value.Native : Value → Prop
  | .number _ => False
  | .array items => NativeItems items
  | .object members => NativeMembers members
  | _ => True

/-- There are no numbers but natural ones in items. -/
def NativeItems : List Value → Prop
  | [] => True
  | item :: rest => item.Native ∧ NativeItems rest

/-- There are no numbers but natural ones in members. -/
def NativeMembers : List (String × Value) → Prop
  | [] => True
  | (_, value) :: rest => value.Native ∧ NativeMembers rest

end

/-! ### Cutting a written value -/

theorem toList_newLine (depth : Nat) :
    (newLine depth).toList = '\n' :: List.replicate depth ' ' := by
  simp [newLine]

theorem cut_newLine (depth : Nat) : Cut Always (newLine depth).toList [] := by
  refine .gap fun c hc => ?_
  rw [toList_newLine] at hc
  rcases List.mem_cons.1 hc with rfl | hc
  · decide
  · rw [List.eq_of_mem_replicate hc]
    decide

theorem ends_newLine (depth : Nat) (rest : List Char) : Ends ((newLine depth).toList ++ rest) := by
  rw [toList_newLine, List.cons_append]
  exact ends_cons (by decide)

/-- A bracket or separator is cut off whatever follows. -/
theorem cut_sign {c : Char} {token : Token} (hgap : isGap c = false)
    (h : ∀ rest, token? (c :: rest) = some (token, rest)) : Cut Always [c] [token] :=
  .token hgap fun rest _ => h rest

theorem cut_openArray : Cut Always ['['] [.openArray] := cut_sign (by decide) fun _ => rfl

theorem cut_closeArray : Cut Always [']'] [.closeArray] := cut_sign (by decide) fun _ => rfl

theorem cut_openObject : Cut Always ['\x7b'] [.openObject] := cut_sign (by decide) fun _ => rfl

theorem cut_closeObject : Cut Always ['\x7d'] [.closeObject] := cut_sign (by decide) fun _ => rfl

theorem cut_comma : Cut Always [','] [.comma] := cut_sign (by decide) fun _ => rfl

theorem cut_colon : Cut Always [':'] [.colon] := cut_sign (by decide) fun _ => rfl

theorem cut_quote (text : String) : Cut Always (quote text).toList [.quoted text true] := by
  have htext : (quote text).toList = '\"' :: (text.toList.flatMap escapeChar ++ ['\"']) := by
    simp [quote]
  rw [htext]
  refine .token (by decide) fun rest _ => ?_
  simpa using token?_quote text.toList rest

/-- A literal is cut off whatever follows. -/
theorem cut_word (c : Char) (text : List Char) {value : Value} (hgap : isGap c = false)
    (h : ∀ rest, token? (c :: text ++ rest) = some (.scalar value, rest)) :
    Cut Ends (c :: text) [.scalar value] :=
  .token hgap fun rest _ => h rest

theorem cut_nat (n : Nat) : Cut Ends (toString n).toList [.scalar (.nat n)] := by
  rw [Decimal.toList_toString]
  have htoken : ∀ rest, Ends rest →
      token? (Decimal.digits n ++ rest) = some (.scalar (.nat n), rest) :=
    fun _ hrest => token?_digits n hrest
  obtain ⟨c, tail, htail⟩ := List.exists_cons_of_ne_nil (Decimal.digits_ne_nil n)
  have hc : isDigit c = true := Decimal.isDigit_of_mem_digits (htail ▸ List.mem_cons_self)
  rw [htail] at htoken ⊢
  refine .token ?_ htoken
  by_contra hgap
  simp only [isGap, Bool.not_eq_false, Bool.or_eq_true, decide_eq_true_eq] at hgap
  rcases hgap with ((rfl | rfl) | rfl) | rfl <;> exact absurd hc (by decide)

/-- A written member is cut into its key, the colon, and its value. -/
theorem cut_member (depth : Nat) (key : String) {value : List Char} {tokens : List Token}
    (h : Cut Ends value tokens) :
    Cut Ends ((newLine depth).toList ++ ((quote key).toList ++ (':' :: ' ' :: value)))
      (.quoted key true :: .colon :: tokens) := by
  have hblank : Cut Always [' '] [] := .gap fun c hc => by
    rw [List.mem_singleton.1 hc]
    decide
  have hbehind := cut_colon.append (hblank.append h fun _ _ => trivial) fun _ _ => trivial
  have hkey := (cut_quote key).append hbehind fun _ _ => trivial
  exact (cut_newLine depth).append hkey fun _ _ => trivial

/-- Brackets around lines, the closing one on a line of its own. -/
theorem cut_block (depth : Nat) {first last : Char} {opening closing : Token}
    {inner : List Char} {tokens : List Token} (hopen : Cut Always [first] [opening])
    (hclose : Cut Always [last] [closing]) (h : Cut Ends inner tokens) :
    Cut Ends (first :: (inner ++ ((newLine depth).toList ++ [last])))
      (opening :: tokens ++ [closing]) := by
  have hend := (cut_newLine depth).append hclose fun _ _ => trivial
  have hinner := h.append hend fun rest _ => by
    rw [List.append_assoc]
    exact ends_newLine depth _
  exact (hopen.append hinner fun _ _ => trivial).mono fun _ _ => trivial

mutual

/-- A written value is cut into its tokens. -/
theorem cut_spread (depth : Nat) : ∀ value : Value, value.Native →
    Cut Ends (spread depth value).toList (valueTokens value)
  | .null, _ => by
    rw [spread, valueTokens]
    exact cut_word 'n' ['u', 'l', 'l'] (by decide) fun _ => rfl
  | .bool true, _ => by
    rw [spread, valueTokens]
    exact cut_word 't' ['r', 'u', 'e'] (by decide) fun _ => rfl
  | .bool false, _ => by
    rw [spread, valueTokens]
    exact cut_word 'f' ['a', 'l', 's', 'e'] (by decide) fun _ => rfl
  | .nat n, _ => by
    rw [spread, valueTokens]
    exact cut_nat n
  | .string text, _ => by
    rw [spread, valueTokens]
    exact (cut_quote text).mono fun _ _ => trivial
  | .array [], _ => by
    rw [spread, valueTokens, itemTokens]
    exact (cut_openArray.append cut_closeArray fun _ _ => trivial).mono fun _ _ => trivial
  | .array (item :: rest), h => by
    rw [Value.Native] at h
    have hitems := cut_spreadItems (depth + 2) (item :: rest) (List.cons_ne_nil _ _) h
    rw [spread, valueTokens]
    simpa [String.toList_append] using cut_block depth cut_openArray cut_closeArray hitems
  | .object [], _ => by
    rw [spread, valueTokens, memberTokens]
    exact (cut_openObject.append cut_closeObject fun _ _ => trivial).mono fun _ _ => trivial
  | .object (member :: rest), h => by
    rw [Value.Native] at h
    have hmembers := cut_spreadMembers (depth + 2) (member :: rest) (List.cons_ne_nil _ _) h
    rw [spread, valueTokens]
    simpa [String.toList_append] using cut_block depth cut_openObject cut_closeObject hmembers

/-- Written items are cut into their tokens. -/
theorem cut_spreadItems (depth : Nat) : ∀ items : List Value, items ≠ [] → NativeItems items →
    Cut Ends (",".intercalate (spreadItems depth items)).toList (itemTokens items)
  | [], hnil, _ => absurd rfl hnil
  | [item], _, h => by
    rw [NativeItems] at h
    have hitem := (cut_newLine depth).append (cut_spread depth item h.1) fun _ _ => trivial
    rw [spreadItems, spreadItems, String.intercalate_singleton, String.toList_append, itemTokens]
    exact hitem
  | item :: next :: rest, _, h => by
    rw [NativeItems] at h
    have hitem := (cut_newLine depth).append (cut_spread depth item h.1) fun _ _ => trivial
    have hrest := cut_comma.append (cut_spreadItems depth (next :: rest) (List.cons_ne_nil _ _) h.2) fun _ _ => trivial
    have hall := hitem.append hrest fun _ _ => ends_cons (by decide)
    rw [spreadItems, spreadItems, String.intercalate_cons_cons, itemTokens]
    rw [spreadItems] at hall
    simpa [String.toList_append] using hall

/-- Written members are cut into their tokens. -/
theorem cut_spreadMembers (depth : Nat) : ∀ members : List (String × Value), members ≠ [] →
    NativeMembers members →
    Cut Ends (",".intercalate (spreadMembers depth members)).toList (memberTokens members)
  | [], hnil, _ => absurd rfl hnil
  | [(key, value)], _, h => by
    rw [NativeMembers] at h
    have hmember := cut_member depth key (cut_spread depth value h.1)
    rw [spreadMembers, spreadMembers, String.intercalate_singleton, memberTokens]
    simpa [String.toList_append] using hmember
  | (key, value) :: next :: rest, _, h => by
    rw [NativeMembers] at h
    have hmember := cut_member depth key (cut_spread depth value h.1)
    have hrest := cut_comma.append (cut_spreadMembers depth (next :: rest) (List.cons_ne_nil _ _) h.2) fun _ _ => trivial
    have hall := hmember.append hrest fun _ _ => ends_cons (by decide)
    obtain ⟨key', value'⟩ := next
    rw [spreadMembers, spreadMembers, String.intercalate_cons_cons, memberTokens]
    rw [spreadMembers] at hall
    simpa [String.toList_append] using hall

end

/-! ### Putting a value together -/

/-- Something found without a fault. -/
def Found.sound (value : Value) : Found := ⟨value, true⟩

/-- A member found without a fault. -/
def Member.sound (member : String × Value) : Member := ⟨member.1, true, .sound member.2⟩

theorem ofItems_sound (items : List Value) :
    Found.ofItems (items.map Found.sound) = Found.sound (.array items) := by
  simp [Found.ofItems, Found.sound, Function.comp_def]

theorem ofMembers_sound (members : List (String × Value)) :
    Found.ofMembers (members.map Member.sound) = Found.sound (.object members) := by
  simp [Found.ofMembers, Found.sound, Member.sound, Function.comp_def]

/-- The tokens of a value begin with none that closes something. -/
theorem valueTokens_head (value : Value) :
    ∃ token rest, valueTokens value = token :: rest ∧ token ≠ .closeArray := by
  cases value <;> rw [valueTokens] <;> exact ⟨_, _, rfl, nofun⟩

theorem itemTokens_head (item : Value) (others : List Value) :
    ∃ token rest, itemTokens (item :: others) = token :: rest ∧ token ≠ .closeArray := by
  obtain ⟨token, rest, hhead, hclose⟩ := valueTokens_head item
  cases others with
  | nil => exact ⟨token, rest, by rw [itemTokens, hhead], hclose⟩
  | cons next others =>
    exact ⟨token, rest ++ .comma :: itemTokens (next :: others),
      by rw [itemTokens, hhead, List.cons_append], hclose⟩

theorem memberTokens_head (member : String × Value) (others : List (String × Value)) :
    ∃ rest, memberTokens (member :: others) = .quoted member.1 true :: rest := by
  cases others with
  | nil => exact ⟨_, by rw [memberTokens]⟩
  | cons next others => exact ⟨_, by rw [memberTokens, List.cons_append]⟩

mutual

/-- A value is read from its tokens. -/
theorem readValue_valueTokens : ∀ (value : Value) (fuel : Nat) (rest : List Token),
    (valueTokens value).length ≤ fuel →
    readValue fuel (valueTokens value ++ rest) = some (.sound value, rest)
  | value, 0, rest, h => by
    obtain ⟨token, others, hhead, -⟩ := valueTokens_head value
    simp [hhead] at h
  | .null, fuel + 1, rest, _ => by simp [valueTokens, readValue, Found.sound]
  | .bool _, fuel + 1, rest, _ => by simp [valueTokens, readValue, Found.sound]
  | .nat _, fuel + 1, rest, _ => by simp [valueTokens, readValue, Found.sound]
  | .number _, fuel + 1, rest, _ => by simp [valueTokens, readValue, Found.sound]
  | .string _, fuel + 1, rest, _ => by simp [valueTokens, readValue, Found.sound]
  | .array [], fuel + 1, rest, _ => by
    simp [valueTokens, itemTokens, readValue, ← ofItems_sound]
  | .array (item :: others), fuel + 1, rest, h => by
    rw [valueTokens] at h ⊢
    simp only [List.cons_append, List.length_cons, List.length_append, List.length_nil] at h
    have hitems := readItems_itemTokens (item :: others) (List.cons_ne_nil _ _) fuel rest (by omega)
    obtain ⟨token, tail, hhead, hclose⟩ := itemTokens_head item others
    rw [hhead] at hitems ⊢
    simp only [List.cons_append, List.append_assoc, List.nil_append] at hitems ⊢
    rw [readValue, hitems, Option.map_some, ← ofItems_sound]
    intro behind heq
    exact hclose (List.cons.inj heq).1
  | .object [], fuel + 1, rest, _ => by
    simp [valueTokens, memberTokens, readValue, ← ofMembers_sound]
  | .object (member :: others), fuel + 1, rest, h => by
    rw [valueTokens] at h ⊢
    simp only [List.cons_append, List.length_cons, List.length_append, List.length_nil] at h
    have hmembers :=
      readMembers_memberTokens (member :: others) (List.cons_ne_nil _ _) fuel rest (by omega)
    obtain ⟨tail, hhead⟩ := memberTokens_head member others
    rw [hhead] at hmembers ⊢
    simp only [List.cons_append, List.append_assoc, List.nil_append] at hmembers ⊢
    rw [readValue, hmembers, Option.map_some, ← ofMembers_sound]
    exact nofun

/-- Items are read from their tokens up to the closing bracket. -/
theorem readItems_itemTokens : ∀ (items : List Value), items ≠ [] → ∀ (fuel : Nat)
    (rest : List Token), (itemTokens items).length + 1 ≤ fuel →
    readItems fuel (itemTokens items ++ .closeArray :: rest) = some (items.map .sound, rest)
  | items, _, 0, rest, h => by omega
  | [], hnil, _, _, _ => absurd rfl hnil
  | [item], _, fuel + 1, rest, h => by
    rw [itemTokens] at h ⊢
    rw [readItems, readValue_valueTokens item fuel _ (by omega)]
    rfl
  | item :: next :: others, _, fuel + 1, rest, h => by
    rw [itemTokens] at h ⊢
    simp only [List.length_append, List.length_cons] at h
    have hothers :=
      readItems_itemTokens (next :: others) (List.cons_ne_nil _ _) fuel rest (by omega)
    rw [List.append_assoc, List.cons_append, readItems,
      readValue_valueTokens item fuel _ (by omega)]
    simp only [hothers]
    rfl

/-- Members are read from their tokens up to the closing brace. -/
theorem readMembers_memberTokens : ∀ (members : List (String × Value)), members ≠ [] →
    ∀ (fuel : Nat) (rest : List Token), (memberTokens members).length + 1 ≤ fuel →
    readMembers fuel (memberTokens members ++ .closeObject :: rest) =
      some (members.map .sound, rest)
  | members, _, 0, rest, h => by omega
  | [], hnil, _, _, _ => absurd rfl hnil
  | [(key, value)], _, fuel + 1, rest, h => by
    rw [memberTokens] at h ⊢
    simp only [List.length_cons] at h
    rw [List.cons_append, List.cons_append, readMembers,
      readValue_valueTokens value fuel _ (by omega)]
    rfl
  | (key, value) :: next :: others, _, fuel + 1, rest, h => by
    rw [memberTokens] at h ⊢
    simp only [List.cons_append, List.length_append, List.length_cons] at h
    have hothers :=
      readMembers_memberTokens (next :: others) (List.cons_ne_nil _ _) fuel rest (by omega)
    simp only [List.cons_append, List.append_assoc]
    rw [readMembers, readValue_valueTokens value fuel _ (by omega)]
    simp only [hothers]
    rfl

end

/-! ### Reading a text -/

/-- A text that is cut into the tokens of a value has just these. -/
theorem tokens?_of_cut {text : String} {value : Value}
    (h : Cut Ends text.toList (valueTokens value)) : tokens? text = some (valueTokens value) := by
  obtain ⟨fuel, hfuel⟩ := Nat.exists_eq_add_of_le' h.short
  have hnil : tokensFrom fuel [] = some [] := by cases fuel <;> rfl
  have htokens := h.cut [] (fun c hc => by cases hc) fuel [] hnil
  rw [List.append_nil, List.append_nil] at htokens
  rw [tokens?, ← String.length_toList, hfuel]
  exact htokens

/-- A value is read from a text that is cut into its tokens. -/
theorem value?_of_cut {text : String} {value : Value}
    (h : Cut Ends text.toList (valueTokens value)) : value? text = some value := by
  have hread := readValue_valueTokens value ((valueTokens value).length + 1) [] (by omega)
  rw [List.append_nil] at hread
  simp [value?, tokens?_of_cut h, hread, finished, Found.sound]

/-- A written value is read back, also from a line of its own. -/
theorem value?_spread (depth : Nat) {value : Value} (h : value.Native) :
    value? (spread depth value) = some value :=
  value?_of_cut (cut_spread depth value h)

end Marksheet.Json
