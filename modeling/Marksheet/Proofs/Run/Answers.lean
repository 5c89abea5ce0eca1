import Mathlib
import Marksheet.Proofs.Json.Compact
import Marksheet.Proofs.Run.Folder

/-!
# The answers of a run

What a source of answers gives is a sequence: `response` is the answer to the
question of a given number. Draining takes this sequence up to its first gap, and
asks no more often than it is told to (`drain_getElem?`, `drain_asked`). A script
gives its listed answers, then its filler, then nothing (`response_ofAnswers`),
and what a process reads of it is read back from its input (`read_input`).
-/

namespace Marksheet.Run

section Source

variable {Source : Type} (next : Source → Option String × Source)

/-- What is left of a source after this many questions. -/
def leftAfter : Nat → Source → Source
  | 0, source => source
  | count + 1, source => leftAfter count (next source).2

/-- The answer to the question of this number, counted from zero. -/
def response (number : Nat) (source : Source) : Option String :=
  (next (leftAfter next number source)).1

theorem response_zero (source : Source) : response next 0 source = (next source).1 := rfl

theorem response_succ (number : Nat) (source : Source) :
    response next (number + 1) source = response next number (next source).2 := rfl

/-- Draining takes the answers in order, up to the first question that has none. -/
theorem drain_getElem? (limit number : Nat) (source : Source) :
    (drain next limit source).1[number]? =
      if number < limit ∧ ∀ earlier < number, (response next earlier source).isSome then
        response next number source
      else none := by
  induction limit generalizing number source with
  | zero => simp [drain]
  | succ limit ih =>
    cases hfirst : (next source).1 with
    | none =>
      rw [drain_of_none hfirst]
      cases number with
      | zero => simp [response_zero, hfirst]
      | succ number =>
        -- the first question has no answer, so none is taken for a later one
        have hgap : ¬ ∀ earlier < number + 1, (response next earlier source).isSome := by
          intro hall
          have hzero := hall 0 (Nat.succ_pos number)
          rw [response_zero, hfirst] at hzero
          cases hzero
        rw [if_neg fun h => hgap h.2]
        rfl
    | some answer =>
      rw [drain_of_some hfirst]
      cases number with
      | zero => simp [response_zero, hfirst]
      | succ number =>
        have hearlier : (∀ earlier < number + 1, (response next earlier source).isSome) ↔
            ∀ earlier < number, (response next earlier (next source).2).isSome := by
          rw [Nat.forall_lt_succ_left]
          simp [response_zero, response_succ, hfirst]
        rw [List.getElem?_cons_succ, ih, response_succ]
        simp only [hearlier, Nat.add_lt_add_iff_right]

/-- Draining asks once for each answer that it takes, and once more if it meets a question without
one before its limit. -/
theorem drain_asked (limit : Nat) (source : Source) :
    (drain next limit source).2 =
      leftAfter next (min limit ((drain next limit source).1.length + 1)) source := by
  induction limit generalizing source with
  | zero => simp [drain, leftAfter]
  | succ limit ih =>
    cases hfirst : (next source).1 with
    | none =>
      rw [drain_of_none hfirst, List.length_nil, Nat.zero_add, Nat.min_eq_right (by omega)]
      rfl
    | some answer =>
      rw [drain_of_some hfirst, List.length_cons, Nat.add_min_add_right, leftAfter]
      exact ih _

theorem drain_length_le (limit : Nat) (source : Source) :
    (drain next limit source).1.length ≤ limit := by
  have hbehind : (drain next limit source).1[limit]? = none := by
    rw [drain_getElem?, if_neg fun h => Nat.lt_irrefl _ h.1]
  exact List.getElem?_eq_none_iff.1 hbehind

end Source

/-! ### Scripts -/

/-- After questions, the answers behind the ones given are left. -/
theorem answers_leftAfter (count : Nat) (script : Script) :
    (leftAfter Script.next count script).answers = script.answers.drop count := by
  induction count generalizing script with
  | zero => rfl
  | succ count ih =>
    rw [leftAfter, ih, script.next_answers.2, List.drop_tail]

theorem response_script (number : Nat) (script : Script) :
    response Script.next number script = script.answers[number]? := by
  rw [response, Script.next_answers _ |>.1, answers_leftAfter, List.head?_drop]

/-- What a script answers with behind its listed answers. -/
def fillerOf (listed : List String) (filler : Option String) : String :=
  match filler, listed.getLast? with
  | some filler, _ => filler
  | none, some last => last
  | none, none => ""

theorem answers_ofAnswers (listed : List String) (extra : Nat) (filler : Option String) :
    (Script.ofAnswers listed extra filler).answers =
      listed ++ List.replicate extra (fillerOf listed filler) := by
  have hfiller : (filler.or listed.getLast?).getD "" = fillerOf listed filler := by
    unfold fillerOf
    cases filler with
    | some filler => rfl
    | none => cases listed.getLast? <;> rfl
  rw [Script.ofAnswers, Script.answers, hfiller]

/-- A script gives its listed answers, then its filler, and then nothing for ever. -/
theorem response_ofAnswers (listed : List String) (extra : Nat) (filler : Option String)
    (number : Nat) :
    response Script.next number (Script.ofAnswers listed extra filler) =
      if number < listed.length then listed[number]?
      else if number < listed.length + extra then some (fillerOf listed filler)
      else none := by
  rw [response_script, answers_ofAnswers, List.getElem?_append, List.getElem?_replicate]
  split
  · rfl
  · have hcount : number - listed.length < extra ↔ number < listed.length + extra := by omega
    simp only [hcount]

/-! ### The input of a process -/

/-- What a process is asked, as settings have it. -/
def askedValue (settings : Settings) : Json.Value :=
  .object [("answers", .array (((settings.scriptedInputs ++
      List.replicate settings.padExtra (fillerOf settings.scriptedInputs settings.padValue)).take
        10000).map .string)),
    ("echo", .bool settings.echoPrompts),
    ("seed", match settings.randomSeed with
      | some seed => .nat seed
      | none => .null)]

theorem requestValue_eq (settings : Settings) :
    requestValue (.ofSettings settings) settings.script = askedValue settings := by
  rw [requestValue, Script.take_answers, Settings.script, answers_ofAnswers]
  rfl

theorem native_askedValue (settings : Settings) : (askedValue settings).Native := by
  have hanswers := Json.nativeItems_strings ((settings.scriptedInputs ++
    List.replicate settings.padExtra (fillerOf settings.scriptedInputs settings.padValue)).take
      10000)
  unfold askedValue
  cases settings.randomSeed <;> simp only [Json.Value.Native, Json.NativeMembers, hanswers, and_self]

/-- What is asked is read back from the bytes of a request. -/
theorem read_input (settings : Settings) :
    (String.fromUTF8? (request (.ofSettings settings) settings.script).toUTF8).bind Json.value? =
      some (askedValue settings) := by
  rw [Json.fromUTF8?_toUTF8, Option.bind_some, request, requestValue_eq,
    Json.value?_compact (native_askedValue settings)]

/-- Whether a process can be started, and on what, does not depend on what programs do. -/
theorem start_eq (tree : Files.Tree) (plan : Plan) (source fileName : String) (script : Script) :
    (∃ obstacle, ∀ behaviour,
        start behaviour tree plan source fileName script = .error obstacle) ∨
      ∃ given : Start, given.input = (request plan script).toUTF8 ∧ ∀ behaviour,
        start behaviour tree plan source fileName script =
          (behaviour given).mapError (.notStarted given.program) := by
  unfold start
  cases locate tree plan.python with
  | none => exact .inl ⟨_, fun _ => rfl⟩
  | some program =>
    dsimp only
    cases furnish tree (scriptName fileName) source with
    | error failure => exact .inl ⟨_, fun _ => rfl⟩
    | ok files =>
      refine .inr ⟨⟨program, ["-c", supervisor, scriptName fileName,
        Files.join (rootPath runFolder) noteName], (request plan script).toUTF8, files,
        plan.milliseconds⟩, rfl, fun behaviour => ?_⟩
      dsimp only
      cases behaviour _ <;> rfl

end Marksheet.Run
