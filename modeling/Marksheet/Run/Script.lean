/-!
# Scripted answers

A script answers the questions of a run: first its listed answers, then a
filler for a number of further questions, then nothing more. `ask` is one
question; `answers` is all that a script will ever answer, and `next_answers`
says that asking gives exactly these, one after the other. `drain` asks any
source of answers until it gives none, but no more often than it is told to.
-/

namespace Marksheet.Run

/-- The answers of a source to at most this many questions, and what is left of it. -/
def drain {Source : Type} (next : Source → Option String × Source) :
    (limit : Nat) → Source → List String × Source
  | 0, source => ([], source)
  | limit + 1, source =>
    match next source with
    | (none, left) => ([], left)
    | (some answer, left) =>
      let (answers, left) := drain next limit left
      (answer :: answers, left)

section Drain

variable {Source : Type} {next : Source → Option String × Source} {source : Source}

theorem drain_of_none (h : (next source).1 = none) (limit : Nat) :
    drain next (limit + 1) source = ([], (next source).2) := by
  rw [drain]
  split
  · rename_i hnext
    rw [hnext]
  · rename_i hnext
    simp [hnext] at h

theorem drain_of_some {answer : String} (h : (next source).1 = some answer) (limit : Nat) :
    drain next (limit + 1) source =
      (answer :: (drain next limit (next source).2).1, (drain next limit (next source).2).2) := by
  rw [drain]
  split
  · rename_i hnext
    simp [hnext] at h
  · rename_i hnext
    rw [hnext] at h ⊢
    rw [Option.some.inj h]

end Drain

/-- The answers that are left. -/
structure Script where
  /-- The listed answers, in order. -/
  listed : List String
  /-- The answer to questions behind the listed ones. -/
  filler : String
  /-- How many of those are answered. -/
  extra : Nat
  deriving DecidableEq, Repr, Inhabited

namespace Script

/-- A script of listed answers; the filler is the last of them if none is given, or else empty. -/
def ofAnswers (answers : List String) (extra : Nat) (filler : Option String) : Script :=
  ⟨answers, (filler.or answers.getLast?).getD "", extra⟩

/-- The answer to one question, and what is left. -/
def ask (script : Script) : Option (String × Script) :=
  match script.listed, script.extra with
  | answer :: rest, _ => some (answer, { script with listed := rest })
  | [], extra + 1 => some (script.filler, { script with extra := extra })
  | [], 0 => none

/-- A script as a source of answers; a question without an answer leaves it as it is. -/
def next (script : Script) : Option String × Script :=
  match script.ask with
  | some (answer, rest) => (some answer, rest)
  | none => (none, script)

/-- The answers to at most this many questions, and what is left. -/
def take (limit : Nat) (script : Script) : List String × Script := drain next limit script

/-- All answers of a script. -/
def answers (script : Script) : List String :=
  script.listed ++ List.replicate script.extra script.filler

/-- A question takes the first answer, and none is given once there are no more. -/
theorem next_answers (script : Script) :
    script.next.1 = script.answers.head? ∧ script.next.2.answers = script.answers.tail := by
  obtain ⟨listed, filler, extra⟩ := script
  cases listed with
  | cons answer rest => simp [next, ask, answers]
  | nil => cases extra <;> simp [next, ask, answers, List.replicate_succ]

/-- Questions take the answers from the first on. -/
theorem take_answers (limit : Nat) (script : Script) :
    (script.take limit).1 = script.answers.take limit := by
  unfold take
  induction limit generalizing script with
  | zero => rfl
  | succ limit ih =>
    obtain ⟨hfirst, hleft⟩ := next_answers script
    cases hanswers : script.answers with
    | nil =>
      rw [hanswers] at hfirst
      rw [drain_of_none hfirst, List.take_nil]
    | cons answer rest =>
      rw [hanswers] at hfirst hleft
      rw [drain_of_some hfirst, ih, hleft]
      rfl

end Script

end Marksheet.Run
