import Mathlib
import Marksheet.Wildcard.Matching

/-!
# What plain wildcards match

A wildcard of literal characters, question marks and stars is read character by
character (`parse_plain`), and it matches a name exactly if the bytes of the name
fall into the bytes of the literals, one byte for each question mark and any
bytes for each star (`isMatch_iff_fits`). Matching keeps all that can be left of
a name, so no star commits to a length.
-/

namespace Marksheet.Wildcard

/-- Bytes fall into the parts that a wildcard of literals, question marks and stars asks for. -/
inductive Fits : List Char → List UInt8 → Prop where
  | done : Fits [] []
  | one {glob : List Char} {bs : List UInt8} (b : UInt8) :
      Fits glob bs → Fits ('?' :: glob) (b :: bs)
  | run {glob : List Char} {bs : List UInt8} (passed : List UInt8) :
    Fits glob bs → Fits ('*' :: glob) (passed ++ bs)
  | literal {glob : List Char} {bs : List UInt8} (c : Char) :
    c ≠ '?' → c ≠ '*' → Fits glob bs → Fits (c :: glob) (bytesOf c ++ bs)

/-- A character that stands for itself wherever it is, or is a question mark or a star. -/
def IsPlain (c : Char) : Prop := c ≠ '[' ∧ c ≠ '\x7b' ∧ c ≠ '\x7d' ∧ c ≠ '\\'

/-- The piece that a plain character stands for by itself. -/
def pieceOf (c : Char) : Piece := if c = '?' then .one else if c = '*' then .run else .literal c

/-! ### What is left of a name -/

theorem leave_literal_eq (inputs : List (List UInt8)) (c : Char) :
    leave inputs (.literal c) = inputs.filterMap fun bs =>
      if (bytesOf c).isPrefixOf bs then some (bs.drop (bytesOf c).length) else none := rfl

theorem leave_one_eq (inputs : List (List UInt8)) :
    leave inputs .one = inputs.filterMap List.tail? := by
  refine congrArg (inputs.filterMap ·) (funext fun bs => ?_)
  cases bs with
  | nil => rfl
  | cons b rest => rfl

theorem leave_run_cons (longest : List UInt8) (others : List (List UInt8)) :
    leave (longest :: others) .run = tails longest := rfl

theorem leave_trailing_eq (inputs : List (List UInt8)) :
    leave inputs .trailing =
      match inputs.find? (·.head? = some separator) with
      | some (_ :: rest) => tails rest
      | _ => [] := rfl

theorem leave_between_eq (inputs : List (List UInt8)) :
    leave inputs .between =
      match inputs.find? (·.head? = some separator) with
      | some bs => tailsBehindSeparator bs
      | none => [] := rfl

theorem leaveAll_cons (inputs : List (List UInt8)) (piece : Piece) (rest : List Piece) :
    leaveAll inputs (piece :: rest) = leaveAll (leave inputs piece) rest := rfl

/-- A piece that is neither a set nor a group of branches. -/
inductive Flat : Piece → Prop where
  | literal (c : Char) : Flat (.literal c)
  | one : Flat .one
  | run : Flat .run
  | trailing : Flat .trailing
  | between : Flat .between

/-- Remainders of one name, longest first. -/
def Nested (inputs : List (List UInt8)) : Prop :=
  inputs.Pairwise fun longer shorter => shorter <:+ longer

theorem mem_tails {α : Type} {list left : List α} : left ∈ tails list ↔ left <:+ list := by
  induction list with
  | nil => simp [tails]
  | cons a rest ih => rw [tails, List.mem_cons, ih, List.suffix_cons_iff]

theorem nested_tails (list : List UInt8) : Nested (tails list) := by
  induction list with
  | nil => exact List.pairwise_singleton _ _
  | cons a rest ih =>
    refine List.Pairwise.cons (fun left hm => ?_) ih
    exact (mem_tails.mp hm).trans (List.suffix_cons a rest)

/-- Dropping as many bytes from two remainders keeps their order. -/
theorem drop_suffix_drop {α : Type} {shorter longer : List α} (h : shorter <:+ longer) (count : ℕ) :
    shorter.drop count <:+ longer.drop count := by
  have hlength := h.length_le
  refine List.suffix_of_suffix_length_le ((List.drop_suffix _ _).trans h) (List.drop_suffix _ _) ?_
  rw [List.length_drop, List.length_drop]
  omega

theorem Nested.filterMap {inputs : List (List UInt8)} (h : Nested inputs) (count : ℕ)
    {cut : List UInt8 → Option (List UInt8)}
    (hcut : ∀ bs, ∀ left ∈ cut bs, left = bs.drop count) : Nested (inputs.filterMap cut) := by
  refine List.pairwise_filterMap.mpr
    (h.imp fun {longer shorter} hsuffix left hleft right hright => ?_)
  rw [hcut longer left hleft, hcut shorter right hright]
  exact drop_suffix_drop hsuffix count

/-- A piece that takes bytes off the front leaves what it can of each remainder. -/
theorem leave_literal {inputs : List (List UInt8)} (h : Nested inputs) (c : Char) :
    Nested (leave inputs (.literal c)) ∧
      ∀ left, left ∈ leave inputs (.literal c) ↔ ∃ bs ∈ inputs, bs = bytesOf c ++ left := by
  have hcut : ∀ bs left : List UInt8, left ∈ (if (bytesOf c).isPrefixOf bs = true
      then some (bs.drop (bytesOf c).length) else none) ↔ bs = bytesOf c ++ left := by
    intro bs left
    rw [Option.mem_def, Option.ite_none_right_eq_some, List.isPrefixOf_iff_prefix]
    constructor
    · rintro ⟨⟨rest, rfl⟩, hleft⟩
      rw [Option.some.injEq, List.drop_left] at hleft
      rw [hleft]
    · rintro rfl
      exact ⟨List.prefix_append _ _, by rw [List.drop_left]⟩
  constructor
  · refine h.filterMap (bytesOf c).length fun bs left hleft => ?_
    rw [(hcut bs left).mp hleft, List.drop_left]
  · intro left
    rw [leave_literal_eq, List.mem_filterMap]
    exact exists_congr fun bs => and_congr_right fun _ => hcut bs left

theorem leave_one {inputs : List (List UInt8)} (h : Nested inputs) :
    Nested (leave inputs .one) ∧
      ∀ left, left ∈ leave inputs .one ↔ ∃ bs ∈ inputs, ∃ b, bs = b :: left := by
  rw [leave_one_eq]
  constructor
  · refine h.filterMap 1 fun bs left hleft => ?_
    cases bs with
    | nil => cases hleft
    | cons b rest => exact (Option.some.inj hleft).symm
  · intro left
    rw [List.mem_filterMap]
    refine exists_congr fun bs => and_congr_right fun _ => ?_
    cases bs with
    | nil => simp
    | cons b rest => simp

/-- The longest remainder ends in all others, so its ends are the ends of all. -/
theorem leave_run {inputs : List (List UInt8)} (h : Nested inputs) :
    Nested (leave inputs .run) ∧
      ∀ left, left ∈ leave inputs .run ↔ ∃ bs ∈ inputs, left <:+ bs := by
  cases inputs with
  | nil => exact ⟨.nil, fun left => ⟨nofun, fun ⟨_, hm, _⟩ => absurd hm List.not_mem_nil⟩⟩
  | cons longest others =>
    refine ⟨nested_tails longest, fun left => ?_⟩
    rw [leave_run_cons, mem_tails]
    constructor
    · exact fun hleft => ⟨longest, List.mem_cons_self, hleft⟩
    · rintro ⟨bs, hm, hleft⟩
      rcases List.mem_cons.mp hm with rfl | hm
      · exact hleft
      · exact hleft.trans (List.rel_of_pairwise_cons h hm)

/-- The remainders of which one ends where the bytes fall into the parts of a wildcard are those
that some remainder before them fits. -/
theorem leaveAll_iff_fits {glob : List Char} {inputs : List (List UInt8)} (h : Nested inputs) :
    [] ∈ leaveAll inputs (glob.map pieceOf) ↔ ∃ bs ∈ inputs, Fits glob bs := by
  induction glob generalizing inputs with
  | nil =>
    rw [List.map_nil]
    constructor
    · exact fun hm => ⟨[], hm, .done⟩
    · rintro ⟨bs, hm, hfits⟩
      cases hfits
      exact hm
  | cons c glob ih =>
    rw [List.map_cons, leaveAll_cons]
    by_cases hone : c = '?'
    · subst hone
      obtain ⟨hnested, hleave⟩ := leave_one h
      rw [pieceOf, if_pos rfl, ih hnested]
      constructor
      · rintro ⟨left, hm, hfits⟩
        obtain ⟨bs, hbs, b, rfl⟩ := (hleave left).mp hm
        exact ⟨_, hbs, .one b hfits⟩
      · rintro ⟨bs, hm, hfits⟩
        cases hfits with
        | one b hfits => exact ⟨_, (hleave _).mpr ⟨_, hm, b, rfl⟩, hfits⟩
        | literal _ hc => exact absurd rfl hc
    · by_cases hrun : c = '*'
      · subst hrun
        obtain ⟨hnested, hleave⟩ := leave_run h
        rw [pieceOf, if_neg hone, if_pos rfl, ih hnested]
        constructor
        · rintro ⟨left, hm, hfits⟩
          obtain ⟨bs, hbs, passed, rfl⟩ := (hleave left).mp hm
          exact ⟨_, hbs, .run passed hfits⟩
        · rintro ⟨bs, hm, hfits⟩
          cases hfits with
          | run passed hfits =>
            exact ⟨_, (hleave _).mpr ⟨_, hm, List.suffix_append _ _⟩, hfits⟩
          | literal _ _ hc => exact absurd rfl hc
      · obtain ⟨hnested, hleave⟩ := leave_literal h c
        rw [pieceOf, if_neg hone, if_neg hrun, ih hnested]
        constructor
        · rintro ⟨left, hm, hfits⟩
          obtain ⟨bs, hbs, rfl⟩ := (hleave left).mp hm
          exact ⟨_, hbs, .literal c hone hrun hfits⟩
        · rintro ⟨bs, hm, hfits⟩
          cases hfits with
          | one => exact absurd rfl hone
          | run => exact absurd rfl hrun
          | literal _ _ _ hfits => exact ⟨_, (hleave _).mpr ⟨_, hm, rfl⟩, hfits⟩

/-! ### Separators in a wildcard -/

/-- A piece that only a separator can satisfy. -/
def NeedsSeparator (piece : Piece) : Prop :=
  piece = .literal '/' ∨ piece = .trailing ∨ piece = .between

theorem mem_tailsBehindSeparator {bs left : List UInt8} (h : left ∈ tailsBehindSeparator bs) :
    left <:+ bs := by
  induction bs with
  | nil => cases h
  | cons b rest ih =>
    rw [tailsBehindSeparator] at h
    split at h
    · rcases List.mem_cons.mp h with rfl | h
      · exact List.suffix_cons _ _
      · exact (ih h).trans (List.suffix_cons _ _)
    · exact (ih h).trans (List.suffix_cons _ _)

/-- A flat piece leaves an end of what it was given. -/
theorem suffix_of_mem_leave {inputs : List (List UInt8)} {piece : Piece} (h : Flat piece)
    {left : List UInt8} (hm : left ∈ leave inputs piece) : ∃ bs ∈ inputs, left <:+ bs := by
  cases h with
  | literal c =>
    rw [leave_literal_eq, List.mem_filterMap] at hm
    obtain ⟨bs, hbs, hcut⟩ := hm
    cases (Option.ite_none_right_eq_some.mp hcut).2
    exact ⟨bs, hbs, List.drop_suffix _ _⟩
  | one =>
    rw [leave_one_eq, List.mem_filterMap] at hm
    obtain ⟨bs, hbs, hcut⟩ := hm
    cases bs with
    | nil => cases hcut
    | cons b rest =>
      cases hcut
      exact ⟨_, hbs, List.suffix_cons _ _⟩
  | run =>
    cases inputs with
    | nil => cases hm
    | cons longest others => exact ⟨longest, List.mem_cons_self, mem_tails.mp hm⟩
  | trailing =>
    rw [leave_trailing_eq] at hm
    split at hm
    · rename_i first rest hfound
      exact ⟨_, List.mem_of_find?_eq_some hfound, (mem_tails.mp hm).trans (List.suffix_cons _ _)⟩
    · cases hm
  | between =>
    rw [leave_between_eq] at hm
    split at hm
    · rename_i bs hfound
      exact ⟨_, List.mem_of_find?_eq_some hfound, mem_tailsBehindSeparator hm⟩
    · cases hm

/-- Where no separator is left, a piece that needs one leaves nothing. -/
theorem leave_of_needsSeparator {inputs : List (List UInt8)} {piece : Piece}
    (h : NeedsSeparator piece) (hfree : ∀ bs ∈ inputs, separator ∉ bs) :
    leave inputs piece = [] := by
  have hfind : inputs.find? (·.head? = some separator) = none := by
    refine List.find?_eq_none.mpr fun bs hm hhead => ?_
    exact hfree bs hm (List.mem_of_head? (of_decide_eq_true hhead))
  rcases h with rfl | rfl | rfl
  · rw [leave_literal_eq, List.filterMap_eq_nil_iff]
    intro bs hm
    refine if_neg fun hprefix => hfree bs hm ?_
    exact (List.isPrefixOf_iff_prefix.mp hprefix).subset (by decide)
  · rw [leave_trailing_eq, hfind]
  · rw [leave_between_eq, hfind]

theorem leaveAll_nil {pieces : List Piece} (h : ∀ piece ∈ pieces, Flat piece) :
    leaveAll [] pieces = [] := by
  induction pieces with
  | nil => rfl
  | cons piece rest ih =>
    have hnone : leave [] piece = [] := by
      refine List.eq_nil_iff_forall_not_mem.mpr fun left hm => ?_
      obtain ⟨bs, hbs, -⟩ := suffix_of_mem_leave (h piece List.mem_cons_self) hm
      cases hbs
    rw [leaveAll_cons, hnone]
    exact ih fun other hm => h other (List.mem_cons_of_mem _ hm)

theorem leaveAll_of_needsSeparator {pieces : List Piece} {inputs : List (List UInt8)}
    (hflat : ∀ piece ∈ pieces, Flat piece) (hneeds : ∃ piece ∈ pieces, NeedsSeparator piece)
    (hfree : ∀ bs ∈ inputs, separator ∉ bs) : leaveAll inputs pieces = [] := by
  induction pieces generalizing inputs with
  | nil => simp at hneeds
  | cons piece rest ih =>
    have hrest : ∀ other ∈ rest, Flat other := fun other hm =>
      hflat other (List.mem_cons_of_mem _ hm)
    rw [leaveAll_cons]
    by_cases hpiece : NeedsSeparator piece
    · rw [leave_of_needsSeparator hpiece hfree]
      exact leaveAll_nil hrest
    · obtain ⟨needy, hm, hneedy⟩ := hneeds
      have hm : needy ∈ rest := (List.mem_cons.mp hm).resolve_left fun heq => hpiece (heq ▸ hneedy)
      refine ih hrest ⟨needy, hm, hneedy⟩ fun left hleft hsep => ?_
      obtain ⟨bs, hbs, hsuffix⟩ := suffix_of_mem_leave (hflat piece List.mem_cons_self) hleft
      exact hfree bs hbs (hsuffix.subset hsep)

/-- Bytes that fit a wildcard with a separator hold one. -/
theorem separator_mem_of_fits {glob : List Char} {bs : List UInt8} (h : Fits glob bs)
    (hglob : '/' ∈ glob) : separator ∈ bs := by
  induction h with
  | done => cases hglob
  | one b _ ih => exact List.mem_cons_of_mem _ (ih (by simpa using hglob))
  | run passed _ ih => exact List.mem_append_right _ (ih (by simpa using hglob))
  | literal c _ _ _ ih =>
    rcases List.mem_cons.mp hglob with rfl | hglob
    · exact List.mem_append_left _ (by decide)
    · exact List.mem_append_right _ (ih hglob)

/-! ### Reading a plain wildcard -/

/-- Nothing is open in a state, its pieces are flat, and one of them needs a separator. -/
structure Needy (state : State) : Prop where
  groups : state.groups = []
  mode : state.mode = .plain ∨ ∃ count, state.mode = .skip count
  flat : ∀ piece ∈ state.current, Flat piece
  needs : ∃ piece ∈ state.current, NeedsSeparator piece

variable {state : State}

theorem Needy.push (h : Needy state) {piece : Piece} (hflat : Flat piece) :
    Needy (state.push piece) := by
  refine ⟨h.groups, h.mode, fun other hm => ?_, ?_⟩
  · rcases List.mem_cons.mp hm with rfl | hm
    · exact hflat
    · exact h.flat other hm
  · obtain ⟨needy, hm, hneedy⟩ := h.needs
    exact ⟨needy, List.mem_cons_of_mem _ hm, hneedy⟩

/-- Two stars keep what needs a separator, or put another such piece in its place. -/
theorem Needy.readStars (h : Needy state) (behind : Option Char) :
    Needy (state.readStars behind) := by
  have hordinary : ∀ count, Needy { (state.push .run).push .run with mode := .skip count } := by
    intro count
    have hpushed := (h.push .run).push .run
    exact ⟨hpushed.groups, .inr ⟨count, rfl⟩, hpushed.flat, hpushed.needs⟩
  have hreplaced : ∀ count (piece : Piece), Flat piece → NeedsSeparator piece →
      Needy { state with current := piece :: state.current.tail, mode := .skip count } := by
    intro count piece hflat hneeds
    refine ⟨h.groups, .inr ⟨count, rfl⟩, fun other hm => ?_, ⟨piece, List.mem_cons_self, hneeds⟩⟩
    rcases List.mem_cons.mp hm with rfl | hm
    · exact hflat
    · exact h.flat other (List.mem_of_mem_tail hm)
  unfold State.readStars
  dsimp only
  split
  · obtain ⟨needy, hm, -⟩ := h.needs
    rename_i hempty
    rw [List.isEmpty_iff.mp hempty] at hm
    cases hm
  · split
    · exact hordinary 1
    · split
      · refine hreplaced _ _ ?_ ?_
        -- the piece before the stars is flat, so it is no group of folders at the beginning
        all_goals split
        · rename_i hhead
          cases h.flat _ (List.mem_of_head? hhead)
        · exact .trailing
        · split
          · exact .trailing
          · exact .between
        · rename_i hhead
          cases h.flat _ (List.mem_of_head? hhead)
        · exact .inr (.inl rfl)
        · split
          · exact .inr (.inl rfl)
          · exact .inr (.inr rfl)
      · exact hordinary 1

/-- A plain character keeps what needs a separator. -/
theorem Needy.read (h : Needy state) {c : Char} (hc : IsPlain c) (next behind : Option Char) :
    ∃ after, state.read c next behind = .ok after ∧ Needy after := by
  have hbehind : ∀ after : State, Needy after → Needy { after with previous := some c } :=
    fun after h => ⟨h.groups, h.mode, h.flat, h.needs⟩
  obtain ⟨hset, hopen, hclose, hescape⟩ := hc
  have hplain : ∃ after, state.readPlain c next behind = .ok after ∧ Needy after := by
    unfold State.readPlain
    by_cases hone : c = '?'
    · rw [if_pos hone]
      exact ⟨_, rfl, h.push .one⟩
    by_cases hrun : c = '*'
    · rw [if_neg hone, if_pos hrun]
      split
      · exact ⟨_, rfl, h.readStars behind⟩
      · exact ⟨_, rfl, h.push .run⟩
    rw [if_neg hone, if_neg hrun, if_neg hset, if_neg hopen, if_neg hclose, h.groups,
      if_neg hescape]
    split <;> exact ⟨_, rfl, h.push (.literal _)⟩
  unfold State.read
  obtain hmode | ⟨count, hmode⟩ := h.mode
  · obtain ⟨after, hread, hneedy⟩ := hplain
    rw [hmode]
    dsimp only
    rw [hread]
    exact ⟨_, rfl, hbehind after hneedy⟩
  · rw [hmode]
    cases count with
    | zero =>
      obtain ⟨after, hread, hneedy⟩ := hplain
      dsimp only
      rw [hread]
      exact ⟨_, rfl, hbehind after hneedy⟩
    | succ count =>
      refine ⟨_, rfl, hbehind _ ⟨h.groups, ?_, h.flat, h.needs⟩⟩
      dsimp only
      split
      · exact .inl rfl
      · exact .inr ⟨count, rfl⟩

/-- What has needed a separator needs it at the end of a plain wildcard. -/
theorem Needy.readAll {rest : List Char} (h : Needy state) (hplain : ∀ c ∈ rest, IsPlain c) :
    ∃ pieces, readAll state rest = .ok pieces ∧ (∀ piece ∈ pieces, Flat piece) ∧
      ∃ piece ∈ pieces, NeedsSeparator piece := by
  induction rest generalizing state with
  | nil =>
    have hfinish : state.finish = .ok state.current.reverse := by
      unfold State.finish
      obtain hmode | ⟨count, hmode⟩ := h.mode <;> rw [hmode, h.groups] <;> rfl
    refine ⟨_, hfinish, fun piece hm => h.flat piece (List.mem_reverse.mp hm), ?_⟩
    obtain ⟨needy, hm, hneedy⟩ := h.needs
    exact ⟨needy, List.mem_reverse.mpr hm, hneedy⟩
  | cons c rest ih =>
    obtain ⟨after, hread, hneedy⟩ := h.read (hplain c List.mem_cons_self) rest.head? rest.tail.head?
    rw [Wildcard.readAll, hread]
    exact ih hneedy fun d hd => hplain d (List.mem_cons_of_mem c hd)

/-- Two stars stand here for any bytes and not for folders: something else has been read before
them, or what follows is not folders. -/
def Ordinary (previous : Option Char) (current : List Piece) (rest : List Char) : Prop :=
  current ≠ [] ∧ previous ≠ some '/' ∨
    current = [] ∧ rest ≠ ['*', '*'] ∧ ¬ ['*', '*', '/'] <+: rest

theorem readAll_stars {previous : Option Char} {current : List Piece} {rest : List Char}
    (h : Ordinary previous current ('*' :: '*' :: rest)) :
    readAll ⟨.plain, previous, current, []⟩ ('*' :: '*' :: rest) =
      readAll ⟨.plain, some '*', .run :: .run :: current, []⟩ rest := by
  have hstars : State.readStars ⟨.plain, previous, current, []⟩ rest.head? =
      ⟨.skip 1, previous, .run :: .run :: current, []⟩ := by
    unfold State.readStars
    obtain ⟨hcurrent, hprevious⟩ | ⟨rfl, hend, hfolders⟩ := h
    · simp [State.push, hcurrent, hprevious]
    · cases rest with
      | nil => exact absurd rfl hend
      | cons d rest =>
        have hd : d ≠ '/' := by
          rintro rfl
          exact hfolders ⟨rest, rfl⟩
        simp [State.push, hd]
  simp [readAll, State.read, State.readPlain, hstars, bind, Except.bind, pure, Except.pure]

/-- A character that is no separator, and no star before another one, is read as its piece. -/
theorem readAll_cons (previous : Option Char) (current : List Piece) {c : Char} {rest : List Char}
    (hc : IsPlain c) (hstars : c = '*' → rest.head? ≠ some '*') :
    readAll ⟨.plain, previous, current, []⟩ (c :: rest) =
      readAll ⟨.plain, some c, pieceOf c :: current, []⟩ rest := by
  obtain ⟨hset, hopen, hclose, hescape⟩ := hc
  have hread : State.readPlain ⟨.plain, previous, current, []⟩ c rest.head? rest.tail.head? =
      .ok ⟨.plain, previous, pieceOf c :: current, []⟩ := by
    unfold State.readPlain pieceOf
    by_cases hone : c = '?'
    · rw [if_pos hone, if_pos hone]
      rfl
    by_cases hrun : c = '*'
    · rw [if_neg hone, if_pos hrun, if_neg (hstars hrun), if_neg hone, if_pos hrun]
      rfl
    rw [if_neg hone, if_neg hrun, if_neg hset, if_neg hopen, if_neg hclose, if_neg hescape,
      if_neg hone, if_neg hrun]
    split
    · rename_i hcomma
      rw [hcomma]
      rfl
    · rfl
  rw [readAll, State.read]
  dsimp only
  rw [hread]
  rfl

theorem flat_pieceOf (c : Char) : Flat (pieceOf c) := by
  unfold pieceOf
  split
  · exact .one
  split
  · exact .run
  · exact .literal c

/-- A plain wildcard is read character by character; where it holds a separator, some piece needs
one. -/
theorem readAll_plain {rest : List Char} (previous : Option Char) (current : List Piece)
    (hplain : ∀ c ∈ rest, IsPlain c) (hflat : ∀ piece ∈ current, Flat piece)
    (hordinary : Ordinary previous current rest) :
    ∃ pieces, readAll ⟨.plain, previous, current, []⟩ rest = .ok pieces ∧
      (pieces = current.reverse ++ rest.map pieceOf ∨ '/' ∈ rest ∧
        (∀ piece ∈ pieces, Flat piece) ∧ ∃ piece ∈ pieces, NeedsSeparator piece) := by
  induction hlength : rest.length using Nat.strong_induction_on
    generalizing rest previous current with
  | h length ih =>
    subst hlength
    match rest with
    | [] => exact ⟨_, rfl, .inl (by simp)⟩
    | c :: rest =>
      have hrest : ∀ d ∈ rest, IsPlain d := fun d hd => hplain d (List.mem_cons_of_mem c hd)
      have hgrown : ∀ piece ∈ pieceOf c :: current, Flat piece := by
        intro piece hm
        rcases List.mem_cons.mp hm with rfl | hm
        · exact flat_pieceOf c
        · exact hflat piece hm
      by_cases hstars : c = '*' ∧ rest.head? = some '*'
      · -- the second star is dealt with together with the first
        obtain ⟨rfl, hhead⟩ := hstars
        obtain ⟨behind, rfl⟩ : ∃ behind, rest = '*' :: behind :=
          ⟨rest.tail, (List.cons_head?_tail hhead).symm⟩
        obtain ⟨pieces, hread, hpieces⟩ := ih behind.length (by simp) (some '*')
          (.run :: .run :: current)
          (fun d hd => hrest d (List.mem_cons_of_mem _ hd))
          (fun piece hm => by
            rcases List.mem_cons.mp hm with rfl | hm
            · exact .run
            · exact hgrown piece hm)
          (.inl ⟨List.cons_ne_nil _ _, by decide⟩) rfl
        refine ⟨pieces, (readAll_stars hordinary).trans hread, ?_⟩
        refine hpieces.imp (fun heq => ?_) fun hneeds => ⟨by simp [hneeds.1], hneeds.2⟩
        rw [heq]
        simp [pieceOf]
      · have hread := readAll_cons previous current
          (hplain c List.mem_cons_self) fun hc hhead => hstars ⟨hc, hhead⟩
        rw [hread]
        by_cases hc : c = '/'
        · subst hc
          have hneedy : Needy ⟨.plain, some '/', pieceOf '/' :: current, []⟩ :=
            ⟨rfl, .inl rfl, hgrown, ⟨_, List.mem_cons_self, .inl rfl⟩⟩
          obtain ⟨pieces, hpieces, hall⟩ := hneedy.readAll hrest
          exact ⟨pieces, hpieces, .inr ⟨List.mem_cons_self, hall⟩⟩
        · obtain ⟨pieces, hpieces, hall⟩ := ih rest.length (by simp) _ _ hrest hgrown
            (.inl ⟨List.cons_ne_nil _ _, fun heq => hc (Option.some.inj heq)⟩) rfl
          refine ⟨pieces, hpieces, ?_⟩
          refine hall.imp (fun heq => ?_) fun hneeds => ⟨by simp [hneeds.1], hneeds.2⟩
          rw [heq]
          simp

/-- Any bytes fit a star, and two of them. -/
theorem fits_stars (bs : List UInt8) : Fits ['*', '*'] bs := by
  have h := Fits.run bs (Fits.run [] Fits.done)
  rwa [List.nil_append, List.append_nil] at h

/-- A plain wildcard that does not begin with folders matches the names whose bytes fall into its
literals, with one byte for each question mark and any bytes for each star. -/
theorem isMatch_iff_fits {glob : String} (hplain : ∀ c ∈ glob.toList, IsPlain c)
    (hfolders : ¬ ['*', '*', '/'] <+: glob.toList) :
    ∃ pieces, parse glob = .ok pieces ∧ ∀ name, separator ∉ textBytes name →
      (isMatch pieces name = true ↔ Fits glob.toList (textBytes name)) := by
  by_cases hstars : glob.toList = ['*', '*']
  · refine ⟨[.leading], by rw [parse, hstars]; rfl, fun name _ => ?_⟩
    rw [hstars]
    exact iff_of_true rfl (fits_stars _)
  · obtain ⟨pieces, hread, hpieces⟩ := readAll_plain none [] hplain
      (by simp) (.inr ⟨rfl, hstars, hfolders⟩)
    refine ⟨pieces, hread, fun name hname => ?_⟩
    have hflat : ∀ piece ∈ pieces, Flat piece := by
      rcases hpieces with rfl | hneeds
      · intro piece hm
        obtain ⟨c, -, rfl⟩ := List.mem_map.mp hm
        exact flat_pieceOf c
      · exact hneeds.2.1
    have hmatch : isMatch pieces name = true ↔ [] ∈ leaveAll [textBytes name] pieces := by
      unfold isMatch
      split
      · cases hflat .leading List.mem_cons_self
      · exact List.contains_iff_mem
    rw [hmatch]
    rcases hpieces with rfl | ⟨hslash, -, hneeds⟩
    · simpa using leaveAll_iff_fits (List.pairwise_singleton _ (textBytes name))
    · rw [leaveAll_of_needsSeparator hflat hneeds (by simpa using hname)]
      simp only [List.not_mem_nil, false_iff]
      exact fun hfits => hname (separator_mem_of_fits hfits hslash)

end Marksheet.Wildcard
