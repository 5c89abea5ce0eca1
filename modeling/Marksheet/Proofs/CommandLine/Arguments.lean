import Mathlib
import Marksheet.CommandLine.Arguments

/-!
# Arguments as they are written

A combination of choices can be written in many ways: in any order, with long
options or letters, with values behind an equals sign, attached or apart. All
that is read of arguments is what they choose (`settled_written`), so every way
of writing gives the same options, and a choice that is made twice is refused
wherever it stands (`arguments_exact`).
-/

namespace Marksheet.CommandLine

/-! ### Choices -/

/-- One thing that arguments choose. -/
inductive Choice where
  | file (path : String)
  | all
  | folder (path : String)
  | config (path : String)
  | format (format : Format)
  | plain
  | verbose
  deriving DecidableEq, Repr

/-- The name of a format. -/
def Format.name : Format → String
  | pretty => "pretty"
  | json => "json"

theorem Format.ofName?_name (format : Format) : Format.ofName? format.name = some format := by
  cases format <;> rfl

namespace Choice

/-- What a choice sets. -/
def key : Choice → Key
  | file _ => .file
  | all => .all
  | folder _ => .folder
  | config _ => .config
  | format _ => .format
  | plain => .plain
  | verbose => .verbose

/-- The value that is written for a choice; a flag has none. -/
def value? : Choice → Option String
  | file path | folder path | config path => some path
  | .format chosen => some chosen.name
  | all | plain | verbose => none

/-- The long option of a choice, without its hyphens. -/
def name? : Choice → Option String
  | file _ => none
  | all => some "all"
  | folder _ => some "dir"
  | config _ => some "config"
  | format _ => some "format"
  | plain => some "no-color"
  | verbose => some "verbose"

/-- The letter of a choice. -/
def letter? : Choice → Option Char
  | config _ => some 'c'
  | format _ => some 'f'
  | verbose => some 'v'
  | file _ | all | folder _ | plain => none

/-- A flag, which is written without a value. -/
def IsFlag (choice : Choice) : Prop := choice.value? = none

/-- The value of a choice, with at least one character. -/
def HasValue (choice : Choice) (value : String) : Prop := choice.value? = some value ∧ value ≠ ""

/-- A choice with the text that is kept for it. -/
def entry (choice : Choice) : Key × String := (choice.key, choice.value?.getD "")

end Choice

/-! ### Ways of writing -/

/-- A text that is no option: no hyphen begins it that anything follows. -/
def Bare (text : String) : Prop := ∀ letter letters, text.toList ≠ '-' :: letter :: letters

/-- Letters behind one hyphen, with the argument that follows if it is the value of the last. -/
inductive Letters : List Char → List String → List Choice → Prop
  | flag {choice : Choice} {letter : Char} (hletter : choice.letter? = some letter)
      (hflag : choice.IsFlag) : Letters [letter] [] [choice]
  | more {choice : Choice} {letter : Char} {letters : List Char} {values : List String}
      {choices : List Choice} (hletter : choice.letter? = some letter) (hflag : choice.IsFlag)
      (hmore : Letters letters values choices) :
      Letters (letter :: letters) values (choice :: choices)
  | apart {choice : Choice} {letter : Char} {value : String}
      (hletter : choice.letter? = some letter) (hvalue : choice.HasValue value)
      (hbare : Bare value) : Letters [letter] [value] [choice]
  | attached {choice : Choice} {letter : Char} {value : String}
      (hletter : choice.letter? = some letter) (hvalue : choice.HasValue value)
      (hequals : value.toList.head? ≠ some '=') : Letters (letter :: value.toList) [] [choice]
  | joined {choice : Choice} {letter : Char} {value : String}
      (hletter : choice.letter? = some letter) (hvalue : choice.HasValue value) :
      Letters (letter :: '=' :: value.toList) [] [choice]

/-- Arguments that belong together. -/
inductive Group : List String → List Choice → Prop
  | file {path : String} (hpath : path ≠ "") (hbare : Bare path) : Group [path] [.file path]
  | flag {choice : Choice} {name : String} (hname : choice.name? = some name)
      (hflag : choice.IsFlag) : Group ["--" ++ name] [choice]
  | apart {choice : Choice} {name value : String} (hname : choice.name? = some name)
      (hvalue : choice.HasValue value) (hbare : Bare value) : Group ["--" ++ name, value] [choice]
  | joined {choice : Choice} {name value : String} (hname : choice.name? = some name)
      (hvalue : choice.HasValue value) : Group ["--" ++ name ++ "=" ++ value] [choice]
  | letters {letters : List Char} {values : List String} {choices : List Choice}
      (h : Letters letters values choices) :
      Group (String.ofList ('-' :: letters) :: values) choices

/-- Arguments that make choices, in this order. Behind two hyphens a file may have any name. -/
inductive Written : List String → List Choice → Prop
  | none : Written [] []
  | closed : Written ["--"] []
  | file {path : String} (hpath : path ≠ "") : Written ["--", path] [.file path]
  | more {arguments behind : List String} {choices others : List Choice}
      (hgroup : Group arguments choices) (hmore : Written behind others) :
      Written (arguments ++ behind) (choices ++ others)

/-! ### Values that are set -/

/-- Keep a choice, unless its key is set. -/
def enter (values : List (Key × String)) (choice : Choice) :
    Except Refusal (List (Key × String)) :=
  if values.any fun known => known.1 = choice.key then .error .argumentConflict
  else .ok (choice.entry :: values)

/-- The values of choices, the last one first. -/
def valuesOf (choices : List Choice) : List (Key × String) := (choices.map Choice.entry).reverse

theorem mem_valuesOf {choices : List Choice} {entry : Key × String} :
    entry ∈ valuesOf choices ↔ ∃ choice ∈ choices, choice.entry = entry := by
  rw [valuesOf, List.mem_reverse, List.mem_map]

theorem nodup_valuesOf {choices : List Choice} :
    ((valuesOf choices).map Prod.fst).Nodup ↔ (choices.map Choice.key).Nodup := by
  rw [valuesOf, List.map_reverse, List.nodup_reverse, List.map_map]
  rfl

/-- Choices are kept as long as no key is set twice. -/
theorem foldlM_enter (choices : List Choice) {values : List (Key × String)}
    (h : (values.map Prod.fst).Nodup) :
    choices.foldlM enter values =
      if ((valuesOf choices ++ values).map Prod.fst).Nodup then .ok (valuesOf choices ++ values)
      else .error .argumentConflict := by
  induction choices generalizing values with
  | nil =>
    have hnil : valuesOf [] ++ values = values := rfl
    rw [hnil, if_pos h]
    rfl
  | cons choice rest ih =>
    have hcons : valuesOf (choice :: rest) ++ values = valuesOf rest ++ choice.entry :: values := by
      simp [valuesOf]
    rw [List.foldlM_cons, enter, hcons]
    by_cases hset : choice.key ∈ values.map Prod.fst
    · have hany : (values.any fun known => known.1 = choice.key) = true := by
        obtain ⟨known, hm, hk⟩ := List.mem_map.1 hset
        exact List.any_eq_true.2 ⟨known, hm, by simpa using hk⟩
      have htwice : ¬ ((valuesOf rest ++ choice.entry :: values).map Prod.fst).Nodup := by
        intro hnodup
        rw [List.map_append, List.map_cons] at hnodup
        exact (List.nodup_cons.1 (List.nodup_append.1 hnodup).2.1).1 hset
      rw [if_pos hany, if_neg htwice]
      rfl
    · have hany : ¬ (values.any fun known => known.1 = choice.key) = true := by
        intro hany
        obtain ⟨known, hm, hk⟩ := List.any_eq_true.1 hany
        exact hset (List.mem_map.2 ⟨known, hm, by simpa using hk⟩)
      rw [if_neg hany]
      exact ih (List.nodup_cons.2 ⟨hset, h⟩)

namespace Draft

/-- The values that are set once nothing waits any more. -/
def settled (draft : Draft) : Except Refusal (List (Key × String)) := do
  return (← draft.settle).values

/-- An option may follow: nothing waits for a value, and options have not ended. -/
structure Ready (draft : Draft) : Prop where
  trailing : draft.trailing = false
  pending : ∀ key, draft.pending ≠ some ⟨key, none⟩

/-- A draft that is settled is as before, apart from its values. -/
theorem settle_eq (draft : Draft) :
    draft.settle = draft.settled >>= fun values =>
      .ok ⟨values, none, draft.named, draft.trailing⟩ := by
  obtain ⟨values, pending, named, trailing⟩ := draft
  rcases pending with _ | ⟨key, _ | value⟩
  · rfl
  · rfl
  · simp only [settled, settle, put]
    split
    · rfl
    · split <;> rfl

/-- A choice is put as it is entered. -/
theorem put_choice (draft : Draft) {choice : Choice} {text : String}
    (h : choice.IsFlag ∧ text = "" ∨ choice.HasValue text) :
    draft.put choice.key text =
      enter draft.values choice >>= fun values => .ok { draft with values := values } := by
  have htext : choice.entry = (choice.key, text) := by
    rcases h with ⟨hflag, rfl⟩ | ⟨hvalue, -⟩
    · rw [Choice.entry, hflag]; rfl
    · rw [Choice.entry, hvalue]; rfl
  have haccepts : (choice.key.takesValue && !accepts choice.key text) = false := by
    rcases h with ⟨hflag, rfl⟩ | ⟨hvalue, hne⟩
    · cases choice <;> first | rfl | cases hflag
    · have hempty : text.isEmpty = false := by simpa using hne
      cases choice with
      | format chosen =>
        obtain rfl : chosen.name = text := Option.some.inj hvalue
        simp [accepts, Choice.key, Format.ofName?_name]
      | _ => simp [accepts, Choice.key, hempty]
  simp only [put, enter, has, haccepts, htext]
  split <;> rfl

/-! ### One argument after the other -/

/-- An outcome of reading on from a draft, by which just these choices are entered; another option
may follow, and a file is named only by a choice. -/
structure Leads (draft : Draft) (outcome : Except Refusal Draft) (choices : List Choice) : Prop where
  settled : outcome >>= Draft.settled = draft.settled >>= choices.foldlM enter
  ready : ∀ next, outcome = .ok next → next.Ready
  named : ∀ next, outcome = .ok next →
    next.named.toNat ≤ draft.named.toNat + (choices.map Choice.key).count .file

variable {draft : Draft}

/-- What is read behind an outcome is entered behind its choices. -/
theorem Leads.settled_bind {outcome : Except Refusal Draft} {choices others : List Choice}
    {go : Draft → Except Refusal Draft} (h : Leads draft outcome choices)
    (hgo : ∀ next, outcome = .ok next →
      go next >>= Draft.settled = next.settled >>= others.foldlM enter) :
    (outcome >>= go) >>= Draft.settled = draft.settled >>= (choices ++ others).foldlM enter := by
  have happend : draft.settled >>= (choices ++ others).foldlM enter =
      (draft.settled >>= choices.foldlM enter) >>= others.foldlM enter := by
    simp only [List.foldlM_append, bind_assoc]
  rw [happend, ← h.settled, bind_assoc, bind_assoc]
  cases outcome with
  | error refusal => rfl
  | ok next => exact hgo next rfl

/-- Outcomes one after the other. -/
theorem Leads.bind {outcome : Except Refusal Draft} {choices others : List Choice}
    {go : Draft → Except Refusal Draft} (h : Leads draft outcome choices)
    (hgo : ∀ next, outcome = .ok next → Leads next (go next) others) :
    Leads draft (outcome >>= go) (choices ++ others) := by
  have hsettled := h.settled_bind fun next hnext => (hgo next hnext).settled
  cases outcome with
  | error refusal => exact ⟨hsettled, nofun, nofun⟩
  | ok next =>
    have hnext := hgo next rfl
    refine ⟨hsettled, fun last hlast => hnext.ready last hlast, fun last hlast => ?_⟩
    have hfirst := h.named next rfl
    have hsecond := hnext.named last hlast
    rw [List.map_append, List.count_append]
    omega

variable {choice : Choice} {text : String}

/-- A choice is entered at once. -/
theorem leads_entered (draft : Draft) (choice : Choice) :
    Leads draft (draft.settled >>= fun values => enter values choice >>= fun values =>
      .ok ⟨values, none, draft.named, false⟩) [choice] := by
  cases hsettled : draft.settled with
  | error refusal => exact ⟨by rw [hsettled]; rfl, nofun, nofun⟩
  | ok values =>
    change Leads draft (enter values choice >>= fun values =>
      .ok ⟨values, none, draft.named, false⟩) [choice]
    have hfold : draft.settled >>= [choice].foldlM enter = enter values choice := by
      rw [hsettled]
      exact bind_pure (enter values choice)
    cases hentered : enter values choice with
    | error refusal => exact ⟨by rw [hfold, hentered]; rfl, nofun, nofun⟩
    | ok values =>
      refine ⟨by rw [hfold, hentered]; rfl, fun next hnext => ?_, fun next hnext => ?_⟩
      · cases hnext
        exact ⟨rfl, nofun⟩
      · cases hnext
        exact Nat.le_add_right _ _

/-- A choice that waits with its value is entered. -/
theorem settled_waiting (hvalue : choice.HasValue text) (values : List (Key × String))
    (named trailing : Bool) :
    (⟨values, some ⟨choice.key, some text⟩, named, trailing⟩ : Draft).settled =
      enter values choice := by
  have hput := put_choice ⟨values, none, named, trailing⟩ (.inr hvalue)
  simp only [settled, settle, hput]
  cases enter values choice <;> rfl

/-- A choice waits with its value, and is entered by what follows. -/
theorem leads_waiting (hvalue : choice.HasValue text) {named : Bool}
    (hnamed : named.toNat ≤ draft.named.toNat + [choice.key].count .file) :
    Leads draft (draft.settled >>= fun values =>
      .ok ⟨values, some ⟨choice.key, some text⟩, named, false⟩) [choice] := by
  cases hsettled : draft.settled with
  | error refusal => exact ⟨by rw [hsettled]; rfl, nofun, nofun⟩
  | ok values =>
    refine ⟨?_, fun next hnext => ?_, fun next hnext => ?_⟩
    · have hfold : draft.settled >>= [choice].foldlM enter = enter values choice := by
        rw [hsettled]
        exact bind_pure (enter values choice)
      rw [hfold]
      exact settled_waiting hvalue values named false
    · cases hnext
      exact ⟨rfl, fun key h => by cases h⟩
    · cases hnext
      exact hnamed

/-- A flag is raised. -/
theorem leads_raise (htrailing : draft.trailing = false) (hflag : choice.IsFlag) :
    Leads draft (draft.raise choice.key) [choice] := by
  have hraise : draft.raise choice.key = draft.settled >>= fun values =>
      enter values choice >>= fun values => .ok ⟨values, none, draft.named, false⟩ := by
    have hhelp : choice.key ≠ .help := by cases choice <;> nofun
    have hversion : choice.key ≠ .version := by cases choice <;> nofun
    simp only [raise, if_neg hhelp, if_neg hversion, put_choice _ (.inl ⟨hflag, rfl⟩)]
    rw [settle_eq, htrailing, bind_assoc]
    rfl
  rw [hraise]
  exact leads_entered draft choice

/-- A value is attached to its option. -/
theorem leads_attached (htrailing : draft.trailing = false) (hvalue : choice.HasValue text) :
    Leads draft (draft.offer choice.key (some text)) [choice] := by
  have hoffer : draft.offer choice.key (some text) = draft.settled >>= fun values =>
      enter values choice >>= fun values => .ok ⟨values, none, draft.named, false⟩ := by
    simp only [offer, put_choice _ (.inr hvalue)]
    rw [settle_eq, htrailing, bind_assoc]
    rfl
  rw [hoffer]
  exact leads_entered draft choice

/-- An argument that is no option is taken as it is. -/
theorem take_bare (htrailing : draft.trailing = false) (hbare : Bare text) :
    draft.take text = draft.takePlain text := by
  simp only [take, htrailing, Bool.false_eq_true, if_false]
  split
  next h => exact absurd h (hbare '-' [])
  next rest _ h => exact absurd h (hbare '-' rest)
  next letter letters _ _ h => exact absurd h (hbare letter letters)
  next => rfl

/-- A value is the argument behind its option. -/
theorem leads_apart (htrailing : draft.trailing = false) (hvalue : choice.HasValue text)
    (hbare : Bare text) :
    Leads draft (draft.offer choice.key none >>= fun next => next.take text) [choice] := by
  have hoffer : (draft.offer choice.key none >>= fun next => next.take text) =
      draft.settled >>= fun values =>
        .ok ⟨values, some ⟨choice.key, some text⟩, draft.named, false⟩ := by
    simp only [offer]
    rw [settle_eq, htrailing, bind_assoc, bind_assoc]
    refine congrArg _ (funext fun values => ?_)
    have htake : (⟨values, some ⟨choice.key, none⟩, draft.named, false⟩ : Draft).take text =
        (⟨values, some ⟨choice.key, none⟩, draft.named, false⟩ : Draft).takePlain text :=
      take_bare rfl hbare
    exact htake
  rw [hoffer]
  exact leads_waiting hvalue (Nat.le_add_right _ _)

/-- A file waits once no value is waited for. -/
theorem takePlain_file (hpending : ∀ key, draft.pending ≠ some ⟨key, none⟩)
    (hnamed : draft.named = false) :
    draft.takePlain text = draft.settled >>= fun values =>
      .ok ⟨values, some ⟨.file, some text⟩, true, draft.trailing⟩ := by
  unfold takePlain
  split
  next key hwaits _ => exact absurd hwaits (hpending key)
  next =>
    rw [hnamed, if_neg Bool.false_ne_true, settle_eq, bind_assoc]
    rfl

/-- A file is named. -/
theorem leads_file (hready : draft.Ready) (hnamed : draft.named = false) (hpath : text ≠ "")
    (hbare : Bare text) : Leads draft (draft.take text) [.file text] := by
  have hvalue : (Choice.file text).HasValue text := ⟨rfl, hpath⟩
  rw [take_bare hready.trailing hbare, takePlain_file hready.pending hnamed, hready.trailing]
  exact leads_waiting hvalue (Nat.le_add_left _ _)

/-! ### Letters and long options -/

theorem takesValue_key (choice : Choice) : choice.key.takesValue = choice.value?.isSome := by
  cases choice <;> rfl

theorem takesValue_of_isFlag (hflag : choice.IsFlag) : choice.key.takesValue = false := by
  rw [takesValue_key, hflag]
  rfl

theorem takesValue_of_hasValue (hvalue : choice.HasValue text) : choice.key.takesValue = true := by
  rw [takesValue_key, hvalue.1]
  rfl

theorem ofLetter?_letter {letter : Char} (h : choice.letter? = some letter) :
    Key.ofLetter? letter = some choice.key := by
  cases choice <;> cases h <;> rfl

theorem ofName?_name {name : String} (h : choice.name? = some name) :
    Key.ofName? name = some choice.key := by
  cases choice <;> cases h <;> (dsimp only [Choice.key]; decide)

theorem takeLetters_flag {letter : Char} (hletter : choice.letter? = some letter)
    (hflag : choice.IsFlag) (draft : Draft) (letters : List Char) :
    draft.takeLetters (letter :: letters) =
      draft.raise choice.key >>= fun next => next.takeLetters letters := by
  simp only [takeLetters, ofLetter?_letter hletter, takesValue_of_isFlag hflag, Bool.false_eq_true,
    if_false]

theorem takeLetters_option {letter : Char} (hletter : choice.letter? = some letter)
    (hvalue : choice.HasValue text) (draft : Draft) (letters : List Char) :
    draft.takeLetters (letter :: letters) = draft.offer choice.key (clusterValue letters) := by
  simp only [takeLetters, ofLetter?_letter hletter, takesValue_of_hasValue hvalue, if_true]

/-- A value that is attached to its letter is all that follows. -/
theorem clusterValue_attached (hvalue : text ≠ "") (hequals : text.toList.head? ≠ some '=') :
    clusterValue text.toList = some text := by
  cases hchars : text.toList with
  | nil => exact absurd (String.toList_eq_nil_iff.1 hchars) hvalue
  | cons c rest =>
    have hc : c ≠ '=' := fun hc => hequals (by rw [hchars, hc]; rfl)
    have hall : clusterValue (c :: rest) = some (String.ofList (c :: rest)) := by
      unfold clusterValue
      split
      next h => cases h
      next h => exact absurd (List.cons.inj h).1 hc
      next => rfl
    rw [hall, ← hchars, String.ofList_toList]

/-- Letters are taken one after the other, and the value of the last one may follow. -/
theorem leads_letters {letters : List Char} {values : List String} {choices : List Choice}
    (h : Letters letters values choices) (htrailing : draft.trailing = false) :
    Leads draft (draft.takeLetters letters >>= values.foldlM take) choices := by
  induction h generalizing draft with
  | @flag choice letter hletter hflag =>
    have htake : (draft.takeLetters [letter] >>= [].foldlM take) = draft.raise choice.key := by
      rw [takeLetters_flag hletter hflag, bind_assoc]
      exact bind_pure (draft.raise choice.key)
    rw [htake]
    exact leads_raise htrailing hflag
  | more hletter hflag _ ih =>
    rw [takeLetters_flag hletter hflag, bind_assoc]
    have hraised := leads_raise htrailing hflag
    exact hraised.bind fun next hnext => ih (hraised.ready next hnext).trailing
  | apart hletter hvalue hbare =>
    have htaken := leads_apart htrailing hvalue hbare
    rw [takeLetters_option hletter hvalue]
    simp only [List.foldlM_cons, List.foldlM_nil, bind_pure]
    exact htaken
  | attached hletter hvalue hequals =>
    have htaken := leads_attached htrailing hvalue
    rw [takeLetters_option hletter hvalue, clusterValue_attached hvalue.2 hequals]
    simp only [List.foldlM_nil, bind_pure]
    exact htaken
  | joined hletter hvalue =>
    have htaken := leads_attached htrailing hvalue
    rw [takeLetters_option hletter hvalue]
    simp only [clusterValue, String.ofList_toList, List.foldlM_nil, bind_pure]
    exact htaken

/-- Letters stand behind one hyphen. -/
theorem take_letters {letters : List Char} {values : List String} {choices : List Choice}
    (h : Letters letters values choices) (htrailing : draft.trailing = false) :
    draft.take (String.ofList ('-' :: letters)) = draft.takeLetters letters := by
  obtain ⟨choice, letter, rest, hletter, rfl⟩ :
      ∃ choice letter rest, Choice.letter? choice = some letter ∧ letters = letter :: rest := by
    cases h <;> exact ⟨_, _, _, ‹_›, rfl⟩
  have hhyphen : letter ≠ '-' := by
    rintro rfl
    cases choice <;> cases hletter
  simp only [take, htrailing, Bool.false_eq_true, if_false, String.toList_ofList]
  split
  next heq => exact absurd (List.cons.inj (List.cons.inj heq).2).1 hhyphen
  next heq => exact absurd (List.cons.inj (List.cons.inj heq).2).1 hhyphen
  next heq =>
    obtain ⟨rfl, rfl⟩ := List.cons.inj (List.cons.inj heq).2
    rfl
  next hnone => exact absurd rfl (hnone letter rest)

/-- A long option stands behind two hyphens. -/
theorem take_long (htrailing : draft.trailing = false) (htext : text ≠ "") :
    draft.take ("--" ++ text) = draft.takeLong text.toList := by
  have hchars : ("--" ++ text).toList = '-' :: '-' :: text.toList := String.toList_append
  cases htail : text.toList with
  | nil => exact absurd (String.toList_eq_nil_iff.1 htail) htext
  | cons c rest =>
    simp only [take, htrailing, Bool.false_eq_true, if_false, hchars, htail]

theorem name_facts {name : String} (h : choice.name? = some name) :
    name ≠ "" ∧ '=' ∉ name.toList := by
  cases choice <;> cases h <;> decide

/-- The name of a long option ends before the first equals sign. -/
theorem takeLong_name {name : String} (hname : choice.name? = some name) (draft : Draft)
    (value? : Option String) :
    draft.takeLong (name.toList ++ (value?.elim [] fun value => '=' :: value.toList)) =
      if choice.key.takesValue then draft.offer choice.key value?
      else if value?.isSome then .error .tooManyValues else draft.raise choice.key := by
  have hfree : ∀ c ∈ name.toList, (c ≠ '=' : Bool) = true := by
    intro c hc
    have hne : c ≠ '=' := fun h => (name_facts hname).2 (h ▸ hc)
    simpa using hne
  have hname' :
      (name.toList ++ value?.elim [] fun value => '=' :: value.toList).takeWhile (· ≠ '=') =
        name.toList := by
    rw [List.takeWhile_append_of_pos hfree]
    cases value? <;> simp
  simp only [takeLong, hname', List.drop_left, String.ofList_toList, ofName?_name hname]
  cases value? with
  | none => rfl
  | some value => simp only [Option.elim_some, String.ofList_toList, Option.isSome_some]

theorem take_flag {name : String} (htrailing : draft.trailing = false)
    (hname : choice.name? = some name) (hflag : choice.IsFlag) :
    draft.take ("--" ++ name) = draft.raise choice.key := by
  have hlong := takeLong_name hname draft none
  rw [takesValue_of_isFlag hflag] at hlong
  rw [take_long htrailing (name_facts hname).1]
  simpa using hlong

theorem take_option {name : String} (htrailing : draft.trailing = false)
    (hname : choice.name? = some name) (hvalue : choice.HasValue text) :
    draft.take ("--" ++ name) = draft.offer choice.key none := by
  have hlong := takeLong_name hname draft none
  rw [takesValue_of_hasValue hvalue] at hlong
  rw [take_long htrailing (name_facts hname).1]
  simpa using hlong

theorem take_joined {name : String} (htrailing : draft.trailing = false)
    (hname : choice.name? = some name) (hvalue : choice.HasValue text) :
    draft.take ("--" ++ name ++ "=" ++ text) = draft.offer choice.key (some text) := by
  have hlong := takeLong_name hname draft (some text)
  rw [takesValue_of_hasValue hvalue] at hlong
  have hne : name ++ "=" ++ text ≠ "" := by simp [(name_facts hname).1]
  have hchars : (name ++ "=" ++ text).toList = name.toList ++ '=' :: text.toList := by
    simp [String.toList_append]
  have hassoc : "--" ++ name ++ "=" ++ text = "--" ++ (name ++ "=" ++ text) := by
    simp only [String.append_assoc]
  rw [hassoc, take_long htrailing hne, hchars]
  simpa using hlong

/-- Where a file may still be named, none has been. -/
theorem named_eq_false {path : String}
    (h : draft.named.toNat + ([Choice.file path].map Choice.key).count .file ≤ 1) :
    draft.named = false := by
  cases hnamed : draft.named with
  | false => rfl
  | true =>
    rw [hnamed] at h
    exact absurd h (by simp [Choice.key])

/-- Arguments that belong together make their choices. -/
theorem leads_group {arguments : List String} {choices : List Choice} (h : Group arguments choices)
    (hready : draft.Ready)
    (hnamed : draft.named.toNat + (choices.map Choice.key).count .file ≤ 1) :
    Leads draft (arguments.foldlM take draft) choices := by
  cases h with
  | file hpath hbare =>
    simp only [List.foldlM_cons, List.foldlM_nil, bind_pure]
    exact leads_file hready (named_eq_false hnamed) hpath hbare
  | flag hname hflag =>
    simp only [List.foldlM_cons, List.foldlM_nil, bind_pure, take_flag hready.trailing hname hflag]
    exact leads_raise hready.trailing hflag
  | apart hname hvalue hbare =>
    simp only [List.foldlM_cons, List.foldlM_nil, bind_pure,
      take_option hready.trailing hname hvalue]
    exact leads_apart hready.trailing hvalue hbare
  | joined hname hvalue =>
    simp only [List.foldlM_cons, List.foldlM_nil, bind_pure,
      take_joined hready.trailing hname hvalue]
    exact leads_attached hready.trailing hvalue
  | letters h =>
    rw [List.foldlM_cons, take_letters h hready.trailing]
    exact leads_letters h hready.trailing

/-- Two hyphens end the options. -/
theorem take_hyphens (htrailing : draft.trailing = false) :
    draft.take "--" = .ok { draft with trailing := true } := by
  simp only [take, htrailing, Bool.false_eq_true, if_false]
  rfl

theorem settled_trailing (draft : Draft) (trailing : Bool) :
    ({ draft with trailing := trailing } : Draft).settled = draft.settled := by
  simp only [settled, settle]
  split
  · rfl
  · rfl
  · simp only [put, has]
    split
    · rfl
    · split <;> rfl

/-- All that is read of arguments is what they choose. -/
theorem settled_written {arguments : List String} {choices : List Choice}
    (h : Written arguments choices) (hready : draft.Ready)
    (hnamed : draft.named.toNat + (choices.map Choice.key).count .file ≤ 1) :
    arguments.foldlM take draft >>= settled = draft.settled >>= choices.foldlM enter := by
  -- A second file is refused as it is read, before any conflict that waits: hence the bound.
  induction h generalizing draft with
  | none => exact (bind_pure draft.settled).symm
  | closed =>
    rw [List.foldlM_cons, take_hyphens hready.trailing]
    have hsettled : ({ draft with trailing := true } : Draft).settled =
        draft.settled >>= [].foldlM enter := by
      rw [settled_trailing]
      exact (bind_pure draft.settled).symm
    exact hsettled
  | @file path hpath =>
    have hplain : ({ draft with trailing := true } : Draft).take path = draft.settled >>=
        fun values => .ok ⟨values, some ⟨.file, some path⟩, true, true⟩ := by
      rw [← settled_trailing draft true]
      exact takePlain_file hready.pending (named_eq_false hnamed)
    have hvalue : (Choice.file path).HasValue path := ⟨rfl, hpath⟩
    rw [List.foldlM_cons, take_hyphens hready.trailing]
    change [path].foldlM take { draft with trailing := true } >>= settled = _
    simp only [List.foldlM_cons, List.foldlM_nil, bind_pure, hplain, bind_assoc]
    exact congrArg _ (funext fun values => settled_waiting hvalue values true true)
  | more hgroup _ ih =>
    rw [List.map_append, List.count_append] at hnamed
    have hlead := leads_group hgroup hready (by omega)
    rw [List.foldlM_append]
    refine hlead.settled_bind fun next hnext => ?_
    have hnext' := hlead.named next hnext
    exact ih (hlead.ready next hnext) (by omega)

/-- Options are made of the values that are set. -/
theorem settle_options (draft : Draft) :
    draft.settle >>= options = draft.settled >>= fun values =>
      (⟨values, none, false, false⟩ : Draft).options := by
  rw [settle_eq, bind_assoc]
  rfl

end Draft

/-- Arguments are refused or give options by the choices that they make. -/
theorem ofArguments_written {arguments : List String} {choices : List Choice}
    (h : Written arguments choices) (hfile : (choices.map Choice.key).count .file ≤ 1) :
    Options.ofArguments arguments =
      if (choices.map Choice.key).Nodup then
        (⟨valuesOf choices, none, false, false⟩ : Draft).options
      else .error .argumentConflict := by
  have hready : Draft.empty.Ready := ⟨rfl, nofun⟩
  have hsettled : arguments.foldlM Draft.take .empty >>= Draft.settled = choices.foldlM enter [] :=
    Draft.settled_written h hready (by simpa [Draft.empty] using hfile)
  have hfold : choices.foldlM enter [] =
      if ((valuesOf choices ++ []).map Prod.fst).Nodup then .ok (valuesOf choices ++ [])
      else .error .argumentConflict := foldlM_enter choices List.nodup_nil
  have hread : Options.ofArguments arguments =
      (arguments.foldlM Draft.take .empty >>= Draft.settled) >>= fun values =>
        (⟨values, none, false, false⟩ : Draft).options := by
    rw [bind_assoc]
    exact congrArg _ (funext Draft.settle_options)
  rw [List.append_nil] at hfold
  rw [hread, hsettled, hfold]
  by_cases hnodup : (choices.map Choice.key).Nodup
  · rw [if_pos hnodup, if_pos (nodup_valuesOf.2 hnodup)]
    rfl
  · rw [if_neg hnodup, if_neg (mt nodup_valuesOf.1 hnodup)]
    rfl

/-! ### Combinations -/

/-- What can be chosen together; what is not chosen is left out. -/
structure Combination where
  file : Option String
  all : Bool
  folder : Option String
  config : Option String
  format : Option Format
  plain : Bool
  verbose : Bool
  deriving DecidableEq, Repr

namespace Combination

/-- A choice belongs to a combination. -/
def Has (combination : Combination) : Choice → Prop
  | .file path => combination.file = some path
  | .all => combination.all = true
  | .folder path => combination.folder = some path
  | .config path => combination.config = some path
  | .format chosen => combination.format = some chosen
  | .plain => combination.plain = true
  | .verbose => combination.verbose = true

/-- The choices of a combination, each once, in any order. -/
structure Lists (combination : Combination) (choices : List Choice) : Prop where
  once : choices.Nodup
  mem_iff : ∀ choice, choice ∈ choices ↔ combination.Has choice

/-- The options of a combination: the working folder and reports to read where nothing else is
chosen. -/
def options (combination : Combination) : Options where
  file := combination.file
  all := combination.all
  folder := combination.folder.getD "."
  config := combination.config
  format := combination.format.getD .pretty
  plain := combination.plain
  verbose := combination.verbose

/-- The choice of a combination for a key. -/
def choice? (combination : Combination) : Key → Option Choice
  | .file => combination.file.map .file
  | .all => if combination.all then some .all else none
  | .folder => combination.folder.map .folder
  | .config => combination.config.map .config
  | .format => combination.format.map .format
  | .plain => if combination.plain then some .plain else none
  | .verbose => if combination.verbose then some .verbose else none
  | .help | .version => none

variable {combination : Combination} {choices : List Choice}

theorem choice?_eq_some_iff {key : Key} {choice : Choice} :
    combination.choice? key = some choice ↔ combination.Has choice ∧ choice.key = key := by
  cases key <;> cases choice <;> simp [choice?, Has, Choice.key]

/-- A combination has one choice for a key. -/
theorem Has.eq_of_key {choice other : Choice} (h : combination.Has choice)
    (hother : combination.Has other) (hkey : choice.key = other.key) : choice = other := by
  have hchoice := choice?_eq_some_iff.2 ⟨h, hkey⟩
  have hother := choice?_eq_some_iff.2 ⟨hother, rfl⟩
  exact Option.some.inj (hchoice.symm.trans hother)

theorem Lists.nodup_keys (h : combination.Lists choices) : (choices.map Choice.key).Nodup := by
  refine List.Nodup.map_on (fun choice hm other hm' hkey => ?_) h.once
  exact Has.eq_of_key ((h.mem_iff choice).1 hm) ((h.mem_iff other).1 hm') hkey

end Combination

/-- Where no key is set twice, a value is found exactly if it is there. -/
theorem lookup_eq_some_iff {values : List (Key × String)} (h : (values.map Prod.fst).Nodup)
    {key : Key} {text : String} : values.lookup key = some text ↔ (key, text) ∈ values := by
  induction values with
  | nil => simp
  | cons known rest ih =>
    obtain ⟨hfree, hrest⟩ := List.nodup_cons.1 h
    rw [List.lookup_cons]
    by_cases hkey : key = known.1
    · have hnot : (key, text) ∉ rest := fun hm =>
        hfree (List.mem_map.2 ⟨(key, text), hm, hkey⟩)
      subst hkey
      simp [hnot, Prod.ext_iff, eq_comm]
    · have hbeq : (key == known.1) = false := beq_eq_false_iff_ne.2 hkey
      rw [hbeq, List.mem_cons, ih hrest]
      have hne : (key, text) ≠ known := fun heq => hkey (congrArg Prod.fst heq)
      simp [hne]

/-- The keys of choices are set. -/
theorem has_valuesOf {choices : List Choice} {key : Key} :
    (⟨valuesOf choices, none, false, false⟩ : Draft).has key = true ↔
      key ∈ choices.map Choice.key := by
  simp only [Draft.has, List.any_eq_true, mem_valuesOf, decide_eq_true_eq, List.mem_map]
  constructor
  · rintro ⟨-, ⟨choice, hm, rfl⟩, hkey⟩
    exact ⟨choice, hm, hkey⟩
  · rintro ⟨choice, hm, hkey⟩
    exact ⟨choice.entry, ⟨choice, hm, rfl⟩, hkey⟩

/-- A key is set exactly if it has a value. -/
theorem Draft.has_eq (draft : Draft) (key : Key) : draft.has key = (draft.value? key).isSome := by
  obtain ⟨values, pending, named, trailing⟩ := draft
  simp only [has, value?]
  induction values with
  | nil => rfl
  | cons known rest ih =>
    rw [List.any_cons, List.lookup_cons, ih]
    by_cases hkey : key = known.1
    · simp [hkey]
    · have hbeq : (key == known.1) = false := beq_eq_false_iff_ne.2 hkey
      simp [hbeq, Ne.symm hkey]

section

variable {combination : Combination} {choices : List Choice} (h : combination.Lists choices)

include h

/-- The value of a key is that of the choice that the combination has for it. -/
theorem value?_eq (key : Key) :
    (⟨valuesOf choices, none, false, false⟩ : Draft).value? key =
      (combination.choice? key).map fun choice => choice.entry.2 := by
  ext text
  rw [Draft.value?, lookup_eq_some_iff (nodup_valuesOf.2 h.nodup_keys), mem_valuesOf,
    Option.map_eq_some_iff]
  constructor
  · rintro ⟨choice, hm, hentry⟩
    have hchoice : combination.choice? key = some choice :=
      Combination.choice?_eq_some_iff.2 ⟨(h.mem_iff choice).1 hm, congrArg Prod.fst hentry⟩
    exact ⟨choice, hchoice, congrArg Prod.snd hentry⟩
  · rintro ⟨choice, hchoice, htext⟩
    obtain ⟨hhas, hkey⟩ := Combination.choice?_eq_some_iff.1 hchoice
    exact ⟨choice, (h.mem_iff choice).2 hhas, Prod.ext hkey htext⟩

/-- The values of a combination give its options unless they name a file and ask for a batch. -/
theorem options_of_lists :
    (⟨valuesOf choices, none, false, false⟩ : Draft).options =
      if combination.file.isSome ∧ combination.all then .error .argumentConflict
      else .ok combination.options := by
  have hraised : ∀ (raised : Bool) (choice : Choice),
      (if raised then some choice else none).isSome = raised := by
    intro raised choice
    cases raised <;> rfl
  have hformat : ∀ format : Option Format,
      ((format.map Format.name).bind Format.ofName?) = format := by
    intro format
    cases format with
    | none => rfl
    | some chosen => rw [Option.map_some, Option.bind_some, Format.ofName?_name]
  have htext : ∀ choice : String → Choice, (∀ text, (choice text).entry.2 = text) →
      ∀ value : Option String, (value.map choice).map (fun choice => choice.entry.2) = value := by
    intro choice hvalue value
    cases value with
    | none => rfl
    | some text => rw [Option.map_some, Option.map_some, hvalue]
  have hchosen : (combination.format.map Choice.format).map (fun choice => choice.entry.2) =
      combination.format.map Format.name := by
    rw [Option.map_map]
    rfl
  simp only [Draft.options, Draft.has_eq, value?_eq h, Combination.choice?, Option.isSome_map,
    hraised, htext .file fun _ => rfl, htext .folder fun _ => rfl, htext .config fun _ => rfl,
    hchosen, hformat, Combination.options, Bool.and_eq_true]

end

/-- Arguments give back the combination that they are written for. -/
theorem ofArguments_lists {combination : Combination} {choices : List Choice}
    {arguments : List String} (hone : ¬ (combination.file.isSome ∧ combination.all))
    (hlists : combination.Lists choices) (hwritten : Written arguments choices) :
    Options.ofArguments arguments = .ok combination.options := by
  have hnodup := hlists.nodup_keys
  rw [ofArguments_written hwritten (List.nodup_iff_count_le_one.1 hnodup .file), if_pos hnodup,
    options_of_lists hlists, if_neg hone]

/-! ### Any combination can be written -/

/-- The values of a combination have at least one character, and none begins like an option. -/
def Combination.Writable (combination : Combination) : Prop :=
  ∀ choice value, combination.Has choice → choice.value? = some value → value ≠ "" ∧ Bare value

/-- Choices can be written with long options and values behind an equals sign. -/
theorem exists_written_choices {choices : List Choice}
    (h : ∀ choice ∈ choices, ∀ value, choice.value? = some value → value ≠ "" ∧ Bare value) :
    ∃ arguments, Written arguments choices := by
  induction choices with
  | nil => exact ⟨[], .none⟩
  | cons choice rest ih =>
    obtain ⟨behind, hbehind⟩ := ih fun other hm => h other (List.mem_cons_of_mem _ hm)
    have hvalue := h choice List.mem_cons_self
    obtain ⟨arguments, hgroup⟩ : ∃ arguments, Group arguments [choice] := by
      cases choice with
      | file path => exact ⟨_, .file (hvalue path rfl).1 (hvalue path rfl).2⟩
      | all => exact ⟨_, .flag rfl rfl⟩
      | folder path => exact ⟨_, .joined rfl ⟨rfl, (hvalue path rfl).1⟩⟩
      | config path => exact ⟨_, .joined rfl ⟨rfl, (hvalue path rfl).1⟩⟩
      | format chosen => exact ⟨_, .joined rfl ⟨rfl, (hvalue chosen.name rfl).1⟩⟩
      | plain => exact ⟨_, .flag rfl rfl⟩
      | verbose => exact ⟨_, .flag rfl rfl⟩
    exact ⟨arguments ++ behind, .more hgroup hbehind⟩

theorem Combination.exists_lists (combination : Combination) :
    ∃ choices, combination.Lists choices := by
  let keys : List Key := [.file, .all, .folder, .config, .format, .plain, .verbose]
  have hkeys : keys.Nodup := by decide
  refine ⟨keys.filterMap combination.choice?, hkeys.filterMap ?_, fun choice => ?_⟩
  · intro key key' choice hchoice hchoice'
    have hkey := (choice?_eq_some_iff.1 hchoice).2
    exact hkey.symm.trans (choice?_eq_some_iff.1 hchoice').2
  · simp only [List.mem_filterMap, choice?_eq_some_iff]
    constructor
    · rintro ⟨key, -, hhas, -⟩
      exact hhas
    · intro hhas
      have hmem : choice.key ∈ keys := by cases choice <;> simp [Choice.key, keys]
      exact ⟨choice.key, hmem, hhas, rfl⟩

/-- Arguments give back the combination that they are written for, in whatever way and order they
are written, with the standard options for what is left out; each combination can be written.
Arguments that name a file and ask for a batch, or that set any key twice, are in conflict wherever
these stand. -/
theorem arguments_exact :
    (∀ combination : Combination, combination.Writable →
      ∃ choices arguments, combination.Lists choices ∧ Written arguments choices) ∧
    (∀ (combination : Combination) (choices : List Choice) (arguments : List String),
      ¬ (combination.file.isSome ∧ combination.all) → combination.Lists choices →
        Written arguments choices →
          Options.ofArguments arguments = .ok combination.options) ∧
    ∀ (choices : List Choice) (arguments : List String), Written arguments choices →
      (choices.map Choice.key).count .file ≤ 1 →
        (.file ∈ choices.map Choice.key ∧ .all ∈ choices.map Choice.key ∨
            ∃ key, 2 ≤ (choices.map Choice.key).count key) →
          Options.ofArguments arguments = .error .argumentConflict := by
  refine ⟨fun combination hwritable => ?_, fun _ _ _ => ofArguments_lists, ?_⟩
  · obtain ⟨choices, hlists⟩ := combination.exists_lists
    have hvalues : ∀ choice ∈ choices, ∀ value, choice.value? = some value →
        value ≠ "" ∧ Bare value := fun choice hm value =>
      hwritable choice value ((hlists.mem_iff choice).1 hm)
    obtain ⟨arguments, hwritten⟩ := exists_written_choices hvalues
    exact ⟨choices, arguments, hlists, hwritten⟩
  · intro choices arguments hwritten hfile hconflict
    rw [ofArguments_written hwritten hfile]
    by_cases hnodup : (choices.map Choice.key).Nodup
    · rcases hconflict with ⟨hnamed, hall⟩ | ⟨key, htwice⟩
      · rw [if_pos hnodup, Draft.options, has_valuesOf.2 hnamed, has_valuesOf.2 hall]
        rfl
      · have honce := List.nodup_iff_count_le_one.1 hnodup key
        omega
    · rw [if_neg hnodup]

/-- Letters in a cluster, a value with an equals sign of its own and a file behind two hyphens are
read; a file before a batch, and a letter beside its long option, are in conflict. -/
theorem arguments_exact_clustered :
    Options.ofArguments ["-vc=a=b", "--dir", "subs", "--no-color", "-fjson", "--", "-x"] =
        .ok ⟨some "-x", false, "subs", some "a=b", .json, true, true⟩ ∧
      Options.ofArguments ["a.py", "-fjson", "--all"] = .error .argumentConflict ∧
      Options.ofArguments ["-vf", "json", "--verbose"] = .error .argumentConflict := by
  have bare : ∀ {text : String}, text.toList.head? ≠ some '-' → Bare text := by
    intro text hhead letter letters hchars
    exact hhead (by rw [hchars]; rfl)
  have jsonValue : (Choice.format .json).HasValue "json" := ⟨rfl, by decide⟩
  have json : Group ["-fjson"] [.format .json] := .letters (.attached rfl jsonValue (by decide))
  refine ⟨?_, ?_, ?_⟩
  · have configValue : (Choice.config "a=b").HasValue "a=b" := ⟨rfl, by decide⟩
    have cluster : Group ["-vc=a=b"] [.verbose, .config "a=b"] :=
      .letters (.more rfl rfl (.joined rfl configValue))
    have folder : Group ["--" ++ "dir", "subs"] [.folder "subs"] :=
      .apart rfl ⟨rfl, by decide⟩ (bare (by decide))
    have plain : Group ["--" ++ "no-color"] [.plain] := .flag rfl rfl
    have written : Written ["-vc=a=b", "--dir", "subs", "--no-color", "-fjson", "--", "-x"]
        [.verbose, .config "a=b", .folder "subs", .plain, .format .json, .file "-x"] :=
      .more cluster (.more folder (.more plain (.more json (.file (by decide)))))
    let combination : Combination :=
      ⟨some "-x", false, some "subs", some "a=b", some .json, true, true⟩
    have lists : combination.Lists
        [.verbose, .config "a=b", .folder "subs", .plain, .format .json, .file "-x"] := by
      refine ⟨by decide, fun choice => ?_⟩
      cases choice <;> simp [combination, Combination.Has, eq_comm]
    exact arguments_exact.2.1 combination _ _ (by decide) lists written
  · have named : Group ["a.py"] [.file "a.py"] := .file (by decide) (bare (by decide))
    have batch : Group ["--" ++ "all"] [.all] := .flag rfl rfl
    have written : Written ["a.py", "-fjson", "--all"] [.file "a.py", .format .json, .all] :=
      .more named (.more json (.more batch .none))
    exact arguments_exact.2.2 _ _ written (by decide) (.inl (by decide))
  · have cluster : Group ["-vf", "json"] [.verbose, .format .json] :=
      .letters (.more rfl rfl (.apart rfl jsonValue (bare (by decide))))
    have verbose : Group ["--" ++ "verbose"] [.verbose] := .flag rfl rfl
    have written : Written ["-vf", "json", "--verbose"] [.verbose, .format .json, .verbose] :=
      .more cluster (.more verbose .none)
    exact arguments_exact.2.2 _ _ written (by decide) (.inr ⟨.verbose, by decide⟩)

end Marksheet.CommandLine
