import Mathlib
import Marksheet.Proofs.Json.RoundTrip

/-!
# Reading the form on one line

A value without foreign numbers is read back from its form on one line
(`value?_compact`), and a text from its bytes (`fromUTF8?_toUTF8`). The form on
one line has the tokens of the form on several lines, with no gaps between them.
-/

namespace Marksheet.Json

/-- Signs around what ends where the closing one begins. -/
theorem cut_enclosed {first last : Char} {opening closing : Token} {inner : List Char}
    {tokens : List Token} (hopen : Cut Always [first] [opening])
    (hclose : Cut Always [last] [closing])
    (hlast : Source.Alphabet.isDigit last = false ∧ last ≠ '.' ∧ last ≠ 'e' ∧ last ≠ 'E')
    (h : Cut Ends inner tokens) :
    Cut Ends (first :: (inner ++ [last])) (opening :: tokens ++ [closing]) := by
  have hinner := h.append hclose fun rest _ => ends_cons hlast
  exact (hopen.append hinner fun _ _ => trivial).mono fun _ _ => trivial

/-- A member on one line is cut into its key, the colon, and its value. -/
theorem cut_compactMember (key : String) {value : List Char} {tokens : List Token}
    (h : Cut Ends value tokens) :
    Cut Ends ((quote key).toList ++ (':' :: value)) (.quoted key true :: .colon :: tokens) := by
  have hbehind := cut_colon.append h fun _ _ => trivial
  exact (cut_quote key).append hbehind fun _ _ => trivial

mutual

/-- A value on one line is cut into its tokens. -/
theorem cut_compact : ∀ value : Value, value.Native →
    Cut Ends (compact value).toList (valueTokens value)
  | .null, _ => by
    rw [compact, valueTokens]
    exact cut_word 'n' ['u', 'l', 'l'] (by decide) fun _ => rfl
  | .bool true, _ => by
    rw [compact, valueTokens]
    exact cut_word 't' ['r', 'u', 'e'] (by decide) fun _ => rfl
  | .bool false, _ => by
    rw [compact, valueTokens]
    exact cut_word 'f' ['a', 'l', 's', 'e'] (by decide) fun _ => rfl
  | .nat n, _ => by
    rw [compact, valueTokens]
    exact cut_nat n
  | .string text, _ => by
    rw [compact, valueTokens]
    exact (cut_quote text).mono fun _ _ => trivial
  | .array [], _ => by
    rw [compact, compactItems, valueTokens, itemTokens]
    exact (cut_openArray.append cut_closeArray fun _ _ => trivial).mono fun _ _ => trivial
  | .array (item :: rest), h => by
    rw [Value.Native] at h
    have hitems := cut_compactItems (item :: rest) (List.cons_ne_nil _ _) h
    rw [compact, valueTokens]
    simpa [String.toList_append] using
      cut_enclosed cut_openArray cut_closeArray (by decide) hitems
  | .object [], _ => by
    rw [compact, compactMembers, valueTokens, memberTokens]
    exact (cut_openObject.append cut_closeObject fun _ _ => trivial).mono fun _ _ => trivial
  | .object (member :: rest), h => by
    rw [Value.Native] at h
    have hmembers := cut_compactMembers (member :: rest) (List.cons_ne_nil _ _) h
    rw [compact, valueTokens]
    simpa [String.toList_append] using
      cut_enclosed cut_openObject cut_closeObject (by decide) hmembers

/-- Items on one line are cut into their tokens. -/
theorem cut_compactItems : ∀ items : List Value, items ≠ [] → NativeItems items →
    Cut Ends (",".intercalate (compactItems items)).toList (itemTokens items)
  | [], hnil, _ => absurd rfl hnil
  | [item], _, h => by
    rw [NativeItems] at h
    rw [compactItems, compactItems, String.intercalate_singleton, itemTokens]
    exact cut_compact item h.1
  | item :: next :: rest, _, h => by
    rw [NativeItems] at h
    have hrest := cut_comma.append
      (cut_compactItems (next :: rest) (List.cons_ne_nil _ _) h.2) fun _ _ => trivial
    have hall := (cut_compact item h.1).append hrest fun _ _ => ends_cons (by decide)
    rw [compactItems, compactItems, String.intercalate_cons_cons, itemTokens]
    rw [compactItems] at hall
    simpa [String.toList_append] using hall

/-- Members on one line are cut into their tokens. -/
theorem cut_compactMembers : ∀ members : List (String × Value), members ≠ [] →
    NativeMembers members →
    Cut Ends (",".intercalate (compactMembers members)).toList (memberTokens members)
  | [], hnil, _ => absurd rfl hnil
  | [(key, value)], _, h => by
    rw [NativeMembers] at h
    have hmember := cut_compactMember key (cut_compact value h.1)
    rw [compactMembers, compactMembers, String.intercalate_singleton, memberTokens]
    simpa [String.toList_append] using hmember
  | (key, value) :: (key', value') :: rest, _, h => by
    rw [NativeMembers] at h
    have hmember := cut_compactMember key (cut_compact value h.1)
    have hrest := cut_comma.append
      (cut_compactMembers ((key', value') :: rest) (List.cons_ne_nil _ _) h.2) fun _ _ => trivial
    have hall := hmember.append hrest fun _ _ => ends_cons (by decide)
    rw [compactMembers, compactMembers, String.intercalate_cons_cons, memberTokens]
    rw [compactMembers] at hall
    simpa [String.toList_append] using hall

end

/-- A value is read back from its form on one line. -/
theorem value?_compact {value : Value} (h : value.Native) : value? (compact value) = some value :=
  value?_of_cut (cut_compact value h)

/-- A text is read back from its bytes. -/
theorem fromUTF8?_toUTF8 (text : String) : String.fromUTF8? text.toUTF8 = some text :=
  dif_pos text.isValidUTF8

/-- There are no numbers in texts. -/
theorem nativeItems_strings (texts : List String) : NativeItems (texts.map .string) := by
  induction texts with
  | nil => simp [NativeItems]
  | cons text rest ih => simp [NativeItems, Value.Native, ih]

end Marksheet.Json
