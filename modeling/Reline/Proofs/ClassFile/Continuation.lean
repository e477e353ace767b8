/-
  Reline.Proofs.ClassFile.Continuation

  Reading a class file as more bytes arrive.

  A reader decides on the bytes that it has passed, so that bytes which arrive
  behind them change its answer only if it ran out of bytes: then it goes on
  where it stopped. Each step of a reader is described by what becomes of its
  outcome, and sequences of steps follow by one rule. Main statement (`parse_append`): a
  fault stays whatever follows, a missing byte is missed at the same place until
  it is there, and behind a class file every byte is one too many.
-/

import Reline.Proofs.ClassFile.Acceptance
import Reline.Proofs.ClassFile.Composition

namespace Reline.ClassFile

/-! ## More bytes -/

/-- The cursor with more bytes behind the last one. -/
def Cursor.extend (cursor : Cursor) (more : Bytes) : Cursor :=
  ⟨cursor.position, cursor.rest ++ more, cursor.remaining + more.length,
    by rw [List.length_append, cursor.length_rest]⟩

/-- The place behind the last byte. -/
def Cursor.finish (cursor : Cursor) : Nat := cursor.position + cursor.remaining

theorem Cursor.start_append (bytes more : Bytes) :
    Cursor.start (bytes ++ more) = (Cursor.start bytes).extend more :=
  Cursor.ext rfl rfl

theorem Cursor.finish_start (bytes : Bytes) : (Cursor.start bytes).finish = bytes.length :=
  Nat.zero_add _

/-- Advancing within the bytes that are there is the same when more of them follow. -/
theorem Cursor.extend_advance {cursor : Cursor} {n : Nat} (h : n ≤ cursor.remaining)
    (more : Bytes) : (cursor.extend more).advance n = (cursor.advance n).extend more := by
  apply Cursor.ext
  · rfl
  · show (cursor.rest ++ more).drop n = cursor.rest.drop n ++ more
    exact List.drop_append_of_le_length (cursor.length_rest ▸ h)

theorem Cursor.finish_advance {cursor : Cursor} {n : Nat} (h : n ≤ cursor.remaining) :
    (cursor.advance n).finish = cursor.finish := by
  show cursor.position + n + (cursor.remaining - n) = cursor.position + cursor.remaining
  omega

/-! ## Outcomes -/

/-- What a reader gives: a value and the cursor behind it, or a fault. -/
abbrev Outcome (α : Type) := Except FormatError (α × Cursor)

variable {α β : Type} {more : Bytes} {finish : Nat}

/-- Whether a reader got to a place before it stopped or lacked bytes. -/
def Outcome.Passes (place : Nat) : Outcome α → Prop
  | .ok (_, next) => place ≤ next.position
  | .error (.truncated offset _) => place ≤ offset
  | .error _ => True

theorem Outcome.Passes.mono {place place' : Nat} {outcome : Outcome α}
    (h : outcome.Passes place') (hle : place ≤ place') : outcome.Passes place := by
  cases outcome with
  | ok pair => exact Nat.le_trans hle h
  | error e =>
    cases e with
    | truncated offset needed => exact Nat.le_trans hle h
    | _ => trivial

/-- What becomes of an outcome when more bytes follow those that end at a place. A success and what
becomes of it are described apart. -/
inductive Continues (success : Outcome α → Outcome α → Prop) (more : Bytes) (finish : Nat) :
    Outcome α → Outcome α → Prop where
  /-- The reader needed no more bytes. -/
  | succeeds {outcome outcome' : Outcome α} (goes : success outcome outcome') :
    Continues success more finish outcome outcome'
  /-- What was found stays wrong. -/
  | settled {e : FormatError} (fault : e.IsSettled) :
    Continues success more finish (.error e) (.error e)
  /-- There are still too few bytes. -/
  | lacking {offset needed : Nat} (inside : offset ≤ finish) (few : more.length < needed) :
    Continues success more finish (.error (.truncated offset needed))
      (.error (.truncated offset (needed - more.length)))
  /-- The missing bytes are there, and the reader gets behind them. -/
  | resumes {offset needed : Nat} {outcome : Outcome α} (inside : offset ≤ finish)
    (some : 1 ≤ needed) (enough : needed ≤ more.length)
    (behind : outcome.Passes (finish + needed)) :
    Continues success more finish (.error (.truncated offset needed)) outcome

/-- A success with bytes left, to which more bytes are added. -/
inductive Followed (more : Bytes) (finish : Nat) : Outcome α → Outcome α → Prop where
  | mk {value : α} {next : Cursor} (same : next.finish = finish) :
    Followed more finish (.ok (value, next)) (.ok (value, next.extend more))

/-- A success that admits no more bytes. -/
inductive Ended (more : Bytes) : Outcome α → Outcome α → Prop where
  /-- All bytes were read. -/
  | all {pair : α × Cursor} : Ended more (.ok pair) (.error (.trailingBytes more.length))
  /-- Some bytes were left already. -/
  | left {count : Nat} :
    Ended more (.error (.trailingBytes count)) (.error (.trailingBytes (count + more.length)))

namespace Reader

/-- A reader that never moves backwards, and of whose outcomes it is known what becomes of them when
more bytes follow. -/
structure Extends (success : Bytes → Nat → Outcome α → Outcome α → Prop) (reader : Reader α) :
    Prop where
  passes : ∀ cursor, Outcome.Passes cursor.position (reader.run cursor)
  continues : ∀ cursor more, more ≠ [] →
    Continues (success more cursor.finish) more cursor.finish (reader.run cursor)
      (reader.run (cursor.extend more))

/-- A reader whose successes do not depend on what follows. -/
abbrev Online (reader : Reader α) : Prop := reader.Extends Followed

/-! ## Sequences of readers -/

/-- What follows a reader goes on from where that got to. -/
theorem passes_bind {reader : Reader α} {rest : α → Reader β} {cursor : Cursor} {place : Nat}
    (h : Outcome.Passes place (reader.run cursor))
    (hrest : ∀ value next, Outcome.Passes next.position ((rest value).run next)) :
    Outcome.Passes place ((reader >>= rest).run cursor) := by
  cases hrun : reader.run cursor with
  | error e =>
    rw [hrun] at h
    rw [run_bind_error hrun]
    cases e with
    | truncated offset needed => exact h
    | _ => trivial
  | ok pair =>
    obtain ⟨value, next⟩ := pair
    rw [hrun] at h
    rw [run_bind_ok hrun]
    exact (hrest value next).mono h

/-- A reader that does not depend on what follows can stand in front of any other. -/
theorem Online.bind {success : Bytes → Nat → Outcome β → Outcome β → Prop} {reader : Reader α}
    {rest : α → Reader β} (h : reader.Online) (hrest : ∀ value, (rest value).Extends success) :
    (reader >>= rest).Extends success where
  passes cursor := passes_bind (h.passes cursor) fun value next => (hrest value).passes next
  continues cursor more hmore := by
    have hfirst := h.continues cursor more hmore
    generalize hrun : reader.run cursor = outcome at hfirst
    generalize hrun' : reader.run (cursor.extend more) = outcome' at hfirst
    cases hfirst with
    | succeeds goes =>
      obtain ⟨same⟩ := goes
      rw [run_bind_ok hrun, run_bind_ok hrun', ← same]
      exact (hrest _).continues _ more hmore
    | settled fault =>
      rw [run_bind_error hrun, run_bind_error hrun']
      exact .settled fault
    | lacking inside few =>
      rw [run_bind_error hrun, run_bind_error hrun']
      exact .lacking inside few
    | resumes inside some enough behind =>
      rw [run_bind_error hrun]
      subst hrun'
      exact .resumes inside some enough
        (passes_bind behind fun value next => (hrest value).passes next)

theorem online_pure (value : α) : (pure value : Reader α).Online where
  passes _ := Nat.le_refl _
  continues _ _ _ := .succeeds (.mk rfl)

/-- A fault of bytes that were read is found whatever follows. -/
theorem extends_throw {success : Bytes → Nat → Outcome α → Outcome α → Prop} {e : FormatError}
    (he : e.IsSettled) : (throw e : Reader α).Extends success where
  passes cursor := by
    show Outcome.Passes cursor.position (.error e)
    cases e with
    | truncated => exact he.elim
    | _ => trivial
  continues cursor more _ := .settled he

/-! ## Primitive readers -/

theorem online_take (n : Nat) : (take n).Online where
  passes cursor := by
    simp only [take, StateT.run]
    split
    · exact Nat.le_refl _
    · exact Nat.le_add_right _ _
  continues cursor more _ := by
    have hext : (cursor.extend more).remaining = cursor.remaining + more.length := rfl
    simp only [take, StateT.run, hext]
    by_cases hshort : cursor.remaining < n
    · rw [if_pos hshort]
      have hinside : cursor.position ≤ cursor.finish := Nat.le_add_right _ _
      by_cases hstill : cursor.remaining + more.length < n
      · rw [if_pos hstill, Nat.sub_add_eq]
        exact .lacking hinside (by omega)
      · rw [if_neg hstill]
        refine .resumes hinside (by omega) (by omega) ?_
        show cursor.position + cursor.remaining + (n - cursor.remaining) ≤ cursor.position + n
        omega
    · have henough : n ≤ cursor.remaining := Nat.not_lt.1 hshort
      have htaken : (cursor.extend more).rest.take n = cursor.rest.take n :=
        List.take_append_of_le_length (cursor.length_rest ▸ henough)
      rw [if_neg hshort, if_neg (by omega), htaken, Cursor.extend_advance henough]
      exact .succeeds (.mk (Cursor.finish_advance henough))

theorem online_position : position.Online where
  passes _ := Nat.le_refl _
  continues _ _ _ := .succeeds (.mk rfl)

/-- A reader that is put together from single steps does not depend on what follows. -/
theorem Composed.online {reader : Reader α} (h : reader.Composed) : reader.Online := by
  induction h with
  | pure value => exact online_pure value
  | throw settled => exact extends_throw settled
  | position => exact online_position
  | take n => exact online_take n
  | bind _ _ hfirst hlater => exact hfirst.bind hlater

/-! ## The whole file -/

/-- What is left behind the last attribute is counted. -/
theorem run_checkEnd (methods : List MethodLines) (cursor : Cursor) :
    (checkEnd methods).run cursor = if cursor.remaining = 0 then .ok (methods, cursor)
      else .error (.trailingBytes cursor.remaining) := by
  have hget : (get : Reader Cursor).run cursor = .ok (cursor, cursor) := rfl
  rw [checkEnd, run_bind_ok hget]
  dsimp only
  by_cases hend : cursor.remaining = 0
  · rw [if_pos hend, if_neg (not_not_intro hend)]
    rfl
  · rw [if_neg hend, if_pos hend]
    rfl

theorem extends_checkEnd (methods : List MethodLines) :
    (checkEnd methods).Extends fun more _ => Ended more where
  passes cursor := by
    rw [run_checkEnd]
    split
    · exact Nat.le_refl cursor.position
    · trivial
  continues cursor more hmore := by
    have hext : (cursor.extend more).remaining = cursor.remaining + more.length := rfl
    have hleft : cursor.remaining + more.length ≠ 0 := by
      have := List.length_pos_iff.2 hmore
      omega
    rw [run_checkEnd, run_checkEnd, hext, if_neg hleft]
    by_cases hend : cursor.remaining = 0
    · rw [if_pos hend, hend, Nat.zero_add]
      exact .succeeds .all
    · rw [if_neg hend]
      exact .succeeds .left

/-- A reader of a whole file depends on what follows only at its end. -/
theorem Whole.extends {reader : Reader (List MethodLines)} (h : reader.Whole) :
    reader.Extends fun more _ => Ended more := by
  induction h with
  | ended methods => exact extends_checkEnd methods
  | throw settled => exact extends_throw settled
  | bind first _ hlater => exact first.online.bind hlater

end Reader

open Reader

theorem parse_eq_error_iff {bytes : Bytes} {e : FormatError} :
    parse bytes = .error e ↔ readMethods.run (Cursor.start bytes) = .error e := by
  rw [parse]
  cases readMethods.run (Cursor.start bytes) with
  | error e' =>
    constructor
    · intro h
      cases h
      rfl
    · intro h
      cases h
      rfl
  | ok pair =>
    constructor
    · intro h
      contradiction
    · intro h
      contradiction

theorem exists_run_of_parse {bytes : Bytes} {c : ClassFile} (h : parse bytes = .ok c) :
    ∃ pair, readMethods.run (Cursor.start bytes) = .ok pair := by
  rw [parse] at h
  cases hrun : readMethods.run (Cursor.start bytes) with
  | error e =>
    rw [hrun] at h
    contradiction
  | ok pair => exact ⟨pair, rfl⟩

/-- What becomes of the answer to some bytes when more follow. -/
theorem continues_run (bytes : Bytes) {more : Bytes} (hmore : more ≠ []) :
    Continues (Ended more) more bytes.length (readMethods.run (Cursor.start bytes))
      (readMethods.run (Cursor.start (bytes ++ more))) := by
  have h := whole_readMethods.extends.continues (Cursor.start bytes) more hmore
  rwa [Cursor.finish_start, ← Cursor.start_append] at h

/-! ## More bytes behind some

What becomes of each answer to some bytes. -/

section Answers

variable {e : FormatError} {pair : α × Cursor} {outcome : Outcome α}

theorem Continues.of_ok (h : Continues (Ended more) more finish (.ok pair) outcome) :
    outcome = .error (.trailingBytes more.length) := by
  cases h with
  | succeeds goes =>
    cases goes
    rfl

theorem Continues.of_left {count : Nat}
    (h : Continues (Ended more) more finish (.error (.trailingBytes count)) outcome) :
    outcome = .error (.trailingBytes (count + more.length)) := by
  cases h with
  | succeeds goes =>
    cases goes
    rfl
  | settled fault => exact fault.elim

theorem Continues.of_settled (he : e.IsSettled)
    (h : Continues (Ended more) more finish (.error e) outcome) : outcome = .error e := by
  cases h with
  | succeeds goes =>
    cases goes
    exact he.elim
  | settled => rfl
  | lacking => exact he.elim
  | resumes => exact he.elim

/-- Either all bytes that follow are too few as well, or reading gets behind the missing ones. -/
theorem Continues.of_truncated {offset needed : Nat}
    (h : Continues (Ended more) more finish (.error (.truncated offset needed)) outcome) :
    offset ≤ finish
      ∧ (more.length < needed ∧ outcome = .error (.truncated offset (needed - more.length))
        ∨ 1 ≤ needed ∧ needed ≤ more.length ∧ outcome.Passes (finish + needed)) := by
  cases h with
  | succeeds goes => cases goes
  | settled fault => exact fault.elim
  | lacking inside few => exact ⟨inside, .inl ⟨few, rfl⟩⟩
  | resumes inside some enough behind => exact ⟨inside, .inr ⟨some, enough, behind⟩⟩

theorem Continues.of_then_ok (h : Continues (Ended more) more finish outcome (.ok pair)) :
    ∃ offset needed, outcome = .error (.truncated offset needed) := by
  cases h with
  | succeeds goes => cases goes
  | resumes => exact ⟨_, _, rfl⟩

end Answers

/-- Reading bytes with more bytes behind them. Behind a class file each of them is one too many, and
a fault of what was read stays. Where bytes were missing they are missing still, at the same place,
or reading goes on behind them. So what stands in front of the end of a class file is cut short. -/
theorem parse_append (bytes more : Bytes) (hmore : more ≠ []) :
    (∀ c, parse bytes = .ok c → parse (bytes ++ more) = .error (.trailingBytes more.length))
      ∧ (∀ count, parse bytes = .error (.trailingBytes count) →
        parse (bytes ++ more) = .error (.trailingBytes (count + more.length)))
      ∧ (∀ e : FormatError, e.IsSettled → parse bytes = .error e →
        parse (bytes ++ more) = .error e)
      ∧ (∀ offset needed, parse bytes = .error (.truncated offset needed) →
        offset ≤ bytes.length ∧ 1 ≤ needed
          ∧ (more.length < needed →
            parse (bytes ++ more) = .error (.truncated offset (needed - more.length)))
          ∧ (needed ≤ more.length → ∀ offset' needed',
            parse (bytes ++ more) = .error (.truncated offset' needed') →
              bytes.length + needed ≤ offset'))
      ∧ (∀ c, parse (bytes ++ more) = .ok c →
        ∃ offset needed, parse bytes = .error (.truncated offset needed)) := by
  have h := continues_run bytes hmore
  simp only [parse_eq_error_iff]
  refine ⟨fun c hc => ?_, fun count hbytes => ?_, fun e he hbytes => ?_,
    fun offset needed hbytes => ?_, fun c hc => ?_⟩
  · obtain ⟨pair, hpair⟩ := exists_run_of_parse hc
    rw [hpair] at h
    exact h.of_ok
  · rw [hbytes] at h
    exact h.of_left
  · rw [hbytes] at h
    exact h.of_settled he
  · rw [hbytes] at h
    obtain ⟨hinside, ⟨hfew, hstill⟩ | ⟨hsome, henough, hbehind⟩⟩ := h.of_truncated
    · -- the further bytes are too few for the read that was short
      have hneeded : 1 ≤ needed := Nat.lt_of_le_of_lt (Nat.zero_le _) hfew
      exact ⟨hinside, hneeded, fun _ => hstill, fun h => absurd h (Nat.not_le.2 hfew)⟩
    · -- they are enough for it, so that only a later read can be short
      refine ⟨hinside, hsome, fun h => absurd henough (Nat.not_le.2 h), ?_⟩
      intro _ offset' needed' hbehind'
      rw [hbehind'] at hbehind
      exact hbehind
  · obtain ⟨pair, hpair⟩ := exists_run_of_parse hc
    rw [hpair] at h
    exact h.of_then_ok

/-- The class file with two lines: with bytes too many, with another signature in front, cut short
in a name, and with more of it there. -/
theorem parse_append_twoLines :
    parse (twoLines ++ [7]) = .error (.trailingBytes 1)
      ∧ parse (twoLines ++ [7] ++ [8, 9]) = .error (.trailingBytes 3)
      ∧ parse ([0, 0, 0, 1] ++ twoLines) = .error (.badMagic 1)
      ∧ parse (twoLines.take 30 ++ [7]) = .error (.truncated 30 14)
      ∧ (twoLines.take 30).length + 15 ≤ 45
      ∧ ∃ offset needed, parse (twoLines.take 50) = .error (.truncated offset needed) := by
  have hone : parse (twoLines ++ [7]) = .error (.trailingBytes 1) :=
    (parse_append twoLines [7] (by decide)).1 _ parse_twoLines
  have hmagic : parse [0, 0, 0, 1] = .error (.badMagic 1) := by decide +kernel
  have hcut : parse (twoLines.take 30) = .error (.truncated 30 15) := by decide +kernel
  have hlater : parse (twoLines.take 30 ++ (twoLines.drop 30).take 20)
      = .error (.truncated 45 1) := by decide +kernel
  have hwhole : parse (twoLines.take 50 ++ twoLines.drop 50) = .ok _ := parse_twoLines
  obtain ⟨-, -, hfew, -⟩ :=
    (parse_append (twoLines.take 30) [7] (by decide)).2.2.2.1 _ _ hcut
  obtain ⟨-, -, -, henough⟩ :=
    (parse_append (twoLines.take 30) ((twoLines.drop 30).take 20) (by decide)).2.2.2.1 _ _
      hcut
  exact ⟨hone,
    (parse_append (twoLines ++ [7]) [8, 9] (by decide)).2.1 _ hone,
    (parse_append [0, 0, 0, 1] twoLines (by decide)).2.2.1 _ trivial hmagic,
    hfew (by decide), henough (by decide) _ _ hlater,
    (parse_append (twoLines.take 50) (twoLines.drop 50) (by decide)).2.2.2.2 _ hwhole⟩

end Reline.ClassFile
