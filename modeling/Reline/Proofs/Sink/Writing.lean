/-
  Reline.Proofs.Sink.Writing

  A sink of entries whose writer may fail.

  To add an entry, a sink calls its writer twice: the entry is begun, and then it
  gets its data. Any of these calls may fail, and nothing is assumed of a writer
  that has failed. A sink that notes a name behind the second call has noted the
  names of the entries that were really written, at every moment and no others. So
  a text that is passed over is one whose name was written, and a name that could
  not be written is tried again.

  What is really written is told by the writer's own answers: a writer is looked at
  through another one, which keeps account of the calls that it passes on.

  Main statement: `EntrySink.accounts_after`.
-/

import Mathlib.Data.List.Nodup
import Reline.Proofs.Sink.Calls
import Reline.Proofs.Sink.Zip

namespace Reline

/-- What entries are written with. Each call may change the writer and the world, and may fail. -/
class EntryWriter (ω : Type) where
  /-- Begins an entry. -/
  start : (writer : ω) → World → (entryName : String) → ω × World × Except Failure Unit
  /-- Gives its data to the entry that was begun. -/
  write : (writer : ω) → World → Bytes → ω × World × Except Failure Unit
  /-- Writes the directory behind the entries. -/
  finish : (writer : ω) → World → ω × World × Except Failure Unit
  /-- Writes what is still held back. -/
  flush : (writer : ω) → World → ω × World × Except Failure Unit

/-- A sink that adds texts as entries. -/
structure EntrySink (ω : Type) where
  /-- The path of the archive. -/
  path : String
  /-- What the entries are written with; it is not used any more by a sink that is closed. -/
  writer : ω
  /-- Whether the sink is closed. -/
  closed : Bool
  /-- The names that were noted, the latest last. -/
  written : List String

namespace EntrySink

variable {ω : Type} [EntryWriter ω]

omit [EntryWriter ω] in
/-- A sink with a new writer. -/
def new (path : String) (writer : ω) : EntrySink ω := ⟨path, writer, false, []⟩

/-- Adds a text as an entry, and notes its name if that succeeds. -/
def add (sink : EntrySink ω) (world : World) (entryName content : String) :
    EntrySink ω × World × Except Failure Unit :=
  match EntryWriter.start sink.writer world entryName with
  | (writer, world, .error e) =>
    ({ sink with writer }, world, .error (.during s!"Failed to add {entryName} to {sink.path}" e))
  | (writer, world, .ok ()) =>
    match EntryWriter.write writer world (Text.Utf8.encode content) with
    | (writer, world, .error e) =>
      ({ sink with writer }, world,
        .error (.during s!"Failed to write {entryName} to {sink.path}" e))
    | (writer, world, .ok ()) =>
      ({ sink with writer, written := sink.written ++ [entryName] }, world, .ok ())

/-- Adds a text of a class as an entry, unless its name is noted. -/
def save (sink : EntrySink ω) (world : World) (qualifiedName entryName content : String) :
    EntrySink ω × World × Except Failure Unit :=
  if sink.closed then (sink, world, .error (.ofText s!"Output zip already closed: {sink.path}"))
  else if entryName ∈ sink.written then
    (sink, world.record .warn .sink
      s!"Zip entry {entryName} already exists, skipping source of {qualifiedName}", .ok ())
  else sink.add world entryName content

/-- Completes the archive. Afterwards the sink is closed, also if that fails. -/
def close (sink : EntrySink ω) (world : World) : EntrySink ω × World × Except Failure Unit :=
  if sink.closed then (sink, world, .ok ())
  else
    match EntryWriter.finish sink.writer world with
    | (writer, world, .error e) =>
      ({ sink with writer, closed := true }, world,
        .error (.during s!"Failed to finish output zip: {sink.path}" e))
    | (writer, world, .ok ()) =>
      match EntryWriter.flush writer world with
      | (writer, world, .error e) =>
        ({ sink with writer, closed := true }, world,
          .error (.during s!"Failed to flush output zip: {sink.path}" e))
      | (writer, world, .ok ()) => ({ sink with writer, closed := true }, world, .ok ())

instance : TextSink (EntrySink ω) where
  save := save
  close := close

end EntrySink

/-! ## Keeping account -/

/-- A writer with an account of the calls that it got. -/
structure Accounted (ω : Type) where
  writer : ω
  /-- The entry that was begun by the last call, which is still without data. -/
  begun : Option String
  /-- The entries that were begun and got their data, the latest last. -/
  entries : List (String × Bytes)
  /-- The names with which the writer was asked to begin an entry, the latest last. -/
  tried : List String

namespace Accounted

variable {ω : Type} [EntryWriter ω]

omit [EntryWriter ω] in
/-- A writer that got no calls yet. -/
def new (writer : ω) : Accounted ω := ⟨writer, none, [], []⟩

omit [EntryWriter ω] in
/-- The names of the entries that were written. -/
def names (account : Accounted ω) : List String := account.entries.map Prod.fst

instance : EntryWriter (Accounted ω) where
  start account world entryName :=
    let (writer, world, answer) := EntryWriter.start account.writer world entryName
    ({ account with
        writer, tried := account.tried ++ [entryName]
        begun := match answer with
          | .ok () => some entryName
          | .error _ => none },
      world, answer)
  write account world bytes :=
    let (writer, world, answer) := EntryWriter.write account.writer world bytes
    ({ account with
        writer, begun := none
        entries := match account.begun, answer with
          | some entryName, .ok () => account.entries ++ [(entryName, bytes)]
          | _, _ => account.entries },
      world, answer)
  finish account world :=
    let (writer, world, answer) := EntryWriter.finish account.writer world
    ({ account with writer }, world, answer)
  flush account world :=
    let (writer, world, answer) := EntryWriter.flush account.writer world
    ({ account with writer }, world, answer)

end Accounted

namespace EntrySink

variable {ω : Type} [EntryWriter ω]

omit [EntryWriter ω] in
/-- The sink itself, without the account of its writer. -/
def plain (sink : EntrySink (Accounted ω)) : EntrySink ω :=
  ⟨sink.path, sink.writer.writer, sink.closed, sink.written⟩

/-- Keeping account makes no difference. -/
theorem answer_plain (use : InUse (EntrySink (Accounted ω))) (call : SinkCall) :
    InUse.answer ⟨use.sink.plain, use.world, use.answers⟩ call
      = ((use.answer call).1.plain, (use.answer call).2) := by
  obtain ⟨⟨path, account, closed, written⟩, world, answers⟩ := use
  cases call with
  | save qualifiedName entryName content =>
    dsimp only [InUse.answer, TextSink.save, save, add, plain, EntryWriter.start,
      EntryWriter.write]
    cases closed with
    | true => rfl
    | false =>
      by_cases hwritten : entryName ∈ written
      · simp only [if_pos hwritten]
        rfl
      · simp only [if_neg hwritten]
        rcases EntryWriter.start account.writer world entryName with ⟨writer, world', e | done⟩
        · rfl
        · dsimp only [Bool.false_eq_true, if_false]
          rcases EntryWriter.write writer world' (Text.Utf8.encode content)
            with ⟨writer', world'', e | done⟩ <;> rfl
  | close =>
    dsimp only [InUse.answer, TextSink.close, close, plain, EntryWriter.finish, EntryWriter.flush]
    cases closed with
    | true => rfl
    | false =>
      rcases EntryWriter.finish account.writer world with ⟨writer, world', e | done⟩
      · rfl
      · dsimp only [Bool.false_eq_true, if_false]
        rcases EntryWriter.flush writer world' with ⟨writer', world'', e | done⟩ <;> rfl

/-- Keeping account makes no difference to any calls. -/
theorem after_plain (use : InUse (EntrySink (Accounted ω))) (calls : List SinkCall) :
    (⟨use.sink.plain, use.world, use.answers⟩ : InUse (EntrySink ω)).after calls
      = ⟨(use.after calls).sink.plain, (use.after calls).world, (use.after calls).answers⟩ := by
  induction calls generalizing use with
  | nil => rfl
  | cons call calls ih =>
    have hcall : (⟨use.sink.plain, use.world, use.answers⟩ : InUse (EntrySink ω)).call call
        = ⟨(use.call call).sink.plain, (use.call call).world, (use.call call).answers⟩ := by
      rw [InUse.call, answer_plain]
      rfl
    rw [InUse.after, List.foldl_cons, hcall]
    exact ih (use.call call)

/-! ## What is noted -/

/-- Adding a text asks the writer for an entry, which is noted if and only if it is written. -/
theorem add_cases (sink : EntrySink (Accounted ω)) (world : World) (entryName content : String) :
    ∃ account world', account.tried = sink.writer.tried ++ [entryName]
      ∧ ((account.entries = sink.writer.entries ++ [(entryName, Text.Utf8.encode content)]
          ∧ sink.add world entryName content
            = ({ sink with writer := account, written := sink.written ++ [entryName] }, world',
              .ok ()))
        ∨ (account.entries = sink.writer.entries
          ∧ ∃ e, sink.add world entryName content
            = ({ sink with writer := account }, world', .error e))) := by
  obtain ⟨path, account, closed, written⟩ := sink
  dsimp only [add, EntryWriter.start]
  rcases EntryWriter.start account.writer world entryName with ⟨writer, world', e | done⟩
  · refine ⟨_, world', ?_, .inr ⟨?_, _, rfl⟩⟩ <;> rfl
  · dsimp only [EntryWriter.write]
    rcases EntryWriter.write writer world' (Text.Utf8.encode content)
      with ⟨writer', world'', e | done⟩
    · refine ⟨_, world'', ?_, .inr ⟨?_, _, rfl⟩⟩ <;> rfl
    · refine ⟨_, world'', ?_, .inl ⟨?_, rfl⟩⟩ <;> rfl

/-- What saving a text comes to: nothing, if the sink is closed or the name is noted; else the text
is added. -/
theorem save_cases (sink : EntrySink ω) (world : World)
    (qualifiedName entryName content : String) :
    (sink.closed = true ∧ sink.save world qualifiedName entryName content
        = (sink, world, .error (.ofText s!"Output zip already closed: {sink.path}")))
      ∨ (sink.closed = false ∧ entryName ∈ sink.written
        ∧ ∃ world', sink.save world qualifiedName entryName content = (sink, world', .ok ()))
      ∨ (sink.closed = false ∧ entryName ∉ sink.written
        ∧ sink.save world qualifiedName entryName content = sink.add world entryName content) := by
  cases hclosed : sink.closed with
  | true => exact .inl ⟨rfl, by rw [save, if_pos hclosed]⟩
  | false =>
    have hopen : ¬ sink.closed = true := by rw [hclosed]; exact Bool.false_ne_true
    by_cases hwritten : entryName ∈ sink.written
    · exact .inr (.inl ⟨rfl, hwritten, _, by rw [save, if_neg hopen, if_pos hwritten]⟩)
    · exact .inr (.inr ⟨rfl, hwritten, by rw [save, if_neg hopen, if_neg hwritten]⟩)

/-- Closing writes no entry. -/
theorem close_cases (sink : EntrySink (Accounted ω)) (world : World) :
    (sink.closed = true ∧ sink.close world = (sink, world, .ok ()))
      ∨ (sink.closed = false ∧ ∃ account world' answer, account.entries = sink.writer.entries
        ∧ sink.close world = ({ sink with writer := account, closed := true }, world', answer)) := by
  cases hclosed : sink.closed with
  | true => exact .inl ⟨rfl, by rw [close, if_pos hclosed]⟩
  | false =>
    refine .inr ⟨rfl, ?_⟩
    rw [close, if_neg (by rw [hclosed]; exact Bool.false_ne_true)]
    dsimp only [EntryWriter.finish]
    rcases EntryWriter.finish sink.writer.writer world with ⟨writer, world', e | done⟩
    · refine ⟨_, _, _, ?_, rfl⟩
      rfl
    · dsimp only [EntryWriter.flush]
      rcases EntryWriter.flush writer world' with ⟨writer', world'', e | done⟩ <;>
        (refine ⟨_, _, _, ?_, rfl⟩; rfl)

/-- Whether the names that a sink has noted are those of the entries that were written, each once.
-/
structure Accounts (calls : List SinkCall) (use : InUse (EntrySink (Accounted ω))) : Prop where
  written : use.sink.written = use.sink.writer.names
  nodup : use.sink.written.Nodup
  closed : use.sink.closed = true ↔ .close ∈ calls

/-- What a sink of which account is kept makes of a text. -/
structure Truthful (before : EntrySink (Accounted ω)) (entryName content : String)
    (after : EntrySink (Accounted ω)) (answer : Except Failure Unit) : Prop where
  /-- It takes the text only if there is an entry of its name. -/
  ok : answer = .ok () → entryName ∈ after.writer.names
  /-- It refuses the text only if it has not written it. -/
  error : ∀ e, answer = .error e → after.writer.entries = before.writer.entries
  /-- It writes nothing but the text. -/
  entries : after.writer.entries = before.writer.entries
    ∨ after.writer.entries = before.writer.entries ++ [(entryName, Text.Utf8.encode content)]
  /-- If it is open and there is no entry of the name, it tries to write one. -/
  tried : before.closed = false → entryName ∉ before.writer.names →
    after.writer.tried = before.writer.tried ++ [entryName]

theorem truthful_save {sink : EntrySink (Accounted ω)} (hwritten : sink.written = sink.writer.names)
    (world : World) (qualifiedName entryName content : String) :
    Truthful sink entryName content (sink.save world qualifiedName entryName content).1
      (sink.save world qualifiedName entryName content).2.2 := by
  rcases sink.save_cases world qualifiedName entryName content with
    ⟨hclosed, hsave⟩ | ⟨-, hold, world', hsave⟩ | ⟨-, hnew, hsave⟩
  · rw [hsave]
    exact ⟨nofun, fun _ _ => rfl, .inl rfl, fun hopen => absurd (hclosed.symm.trans hopen) nofun⟩
  · rw [hwritten] at hold
    rw [hsave]
    exact ⟨fun _ => hold, fun _ _ => rfl, .inl rfl, fun _ hnew => absurd hold hnew⟩
  · obtain ⟨account, world', htried, ⟨hentries, hadd⟩ | ⟨hentries, e, hadd⟩⟩ :=
      sink.add_cases world entryName content
    · rw [hsave, hadd]
      have hmem : entryName ∈ account.names := by
        rw [Accounted.names, hentries, List.map_append]
        exact List.mem_append_right _ (List.mem_singleton_self _)
      exact ⟨fun _ => hmem, nofun, .inr hentries, fun _ _ => htried⟩
    · rw [hsave, hadd]
      exact ⟨nofun, fun _ _ => hentries, .inl hentries, fun _ _ => htried⟩

section Accounts

variable {calls : List SinkCall} {use : InUse (EntrySink (Accounted ω))}

/-- The name of a text is noted once its entry is there, which no other entry has. -/
theorem Accounts.save (h : Accounts calls use) (qualifiedName entryName content : String) :
    Accounts (calls ++ [.save qualifiedName entryName content])
      (use.call (.save qualifiedName entryName content)) := by
  obtain ⟨hwritten, hnodup, hclosed⟩ := h
  have hclosed' : use.sink.closed = true
      ↔ .close ∈ calls ++ [.save qualifiedName entryName content] := by
    simpa using hclosed
  have hcall : (use.call (.save qualifiedName entryName content)).sink
      = (use.sink.save use.world qualifiedName entryName content).1 := rfl
  rcases use.sink.save_cases use.world qualifiedName entryName content with
    ⟨-, hsave⟩ | ⟨-, -, world, hsave⟩ | ⟨-, hnew, hsave⟩
  · rw [hsave] at hcall
    exact ⟨hcall ▸ hwritten, hcall ▸ hnodup, hcall ▸ hclosed'⟩
  · rw [hsave] at hcall
    exact ⟨hcall ▸ hwritten, hcall ▸ hnodup, hcall ▸ hclosed'⟩
  · obtain ⟨account, world, -, ⟨hentries, hadd⟩ | ⟨hentries, e, hadd⟩⟩ :=
      use.sink.add_cases use.world entryName content
    · rw [hsave, hadd] at hcall
      rw [hwritten] at hnew hnodup
      refine ⟨?_, ?_, hcall ▸ hclosed'⟩
      · rw [hcall]
        dsimp only [Accounted.names]
        rw [hentries, hwritten, List.map_append]
        rfl
      · rw [hcall]
        dsimp only
        rw [hwritten, ← List.concat_eq_append]
        exact hnodup.concat hnew
    · -- an entry that could not be written is not noted
      rw [hsave, hadd] at hcall
      refine ⟨?_, hcall ▸ hnodup, hcall ▸ hclosed'⟩
      rw [hcall]
      dsimp only [Accounted.names]
      rw [hentries]
      exact hwritten

/-- Closing the sink adds no entry, whether or not the sink can be finished. -/
theorem Accounts.close (h : Accounts calls use) :
    Accounts (calls ++ [.close]) (use.call .close) := by
  obtain ⟨hwritten, hnodup, -⟩ := h
  have hcall : (use.call .close).sink = (use.sink.close use.world).1 := rfl
  have hmem : .close ∈ calls ++ [SinkCall.close] :=
    List.mem_append_right _ (List.mem_singleton_self _)
  rcases use.sink.close_cases use.world with
    ⟨hisClosed, hclose⟩ | ⟨-, account, world, answer, hentries, hclose⟩
  · rw [hclose] at hcall
    exact ⟨hcall ▸ hwritten, hcall ▸ hnodup, by rw [hcall]; exact iff_of_true hisClosed hmem⟩
  · rw [hclose] at hcall
    refine ⟨?_, hcall ▸ hnodup, by rw [hcall]; exact iff_of_true rfl hmem⟩
    rw [hcall]
    dsimp only [Accounted.names]
    rw [hentries]
    exact hwritten

/-- A call more is accounted for, too. -/
theorem Accounts.call (h : Accounts calls use) (call : SinkCall) :
    Accounts (calls ++ [call]) (use.call call) := by
  cases call with
  | save qualifiedName entryName content => exact h.save qualifiedName entryName content
  | close => exact h.close

end Accounts

/-- Whatever fails, after any calls the names that are noted are those that were written. -/
theorem accounts_after (path : String) (writer : ω) (world : World) (calls : List SinkCall) :
    Accounts calls
      ((⟨EntrySink.new path (Accounted.new writer), world, []⟩ :
        InUse (EntrySink (Accounted ω))).after calls) :=
  InUse.after_induction ⟨rfl, .nil, iff_of_false Bool.false_ne_true (List.not_mem_nil)⟩
    (fun _ _ last h => h.call last) calls

end EntrySink

/-! ## The zip sink -/

namespace ZipOutput

variable {output output' : ZipOutput} {fs fs' : FileSystem}

/-- Begins an entry: completes the one before, and writes the record of the new one. -/
def beginEntry (output : ZipOutput) (fs : FileSystem) (entryName : String) :
    Except OsError (ZipOutput × FileSystem) := do
  let (output, fs) ← output.settle fs
  let fs ← fs.write output.file output.offset (Zip.Item.new entryName []).openRecord
  return (output, fs)

/-- The record of an entry does not depend on its data, which can be given later. -/
theorem add_eq_beginEntry (output : ZipOutput) (fs : FileSystem) (entryName : String)
    (bytes : Bytes) :
    output.add fs (.new entryName bytes)
      = (output.beginEntry fs entryName).map fun (output, fs) =>
        ({ output with pending := some (.new entryName bytes) }, fs) := by
  have hrecord : (Zip.Item.new entryName bytes).openRecord
      = (Zip.Item.new entryName []).openRecord := rfl
  rw [add, beginEntry, hrecord]
  cases output.settle fs with
  | error e => rfl
  | ok settled =>
    dsimp only [bind, Except.bind]
    cases settled.2.write settled.1.file settled.1.offset
      (Zip.Item.new entryName []).openRecord with
    | error e => rfl
    | ok files => rfl

/-- When an entry is begun, the one before is complete. -/
theorem complete_of_beginEntry {entryName : String}
    (h : output.beginEntry fs entryName = .ok (output', fs')) :
    output'.complete = output.items := by
  rw [beginEntry] at h
  -- what was pending is settled first, and the next entry is pending then
  cases hsettle : output.settle fs with
  | error e =>
    rw [hsettle] at h
    contradiction
  | ok settled =>
    obtain ⟨output₁, fs₁⟩ := settled
    rw [hsettle] at h
    dsimp only [bind, Except.bind] at h
    split at h
    case h_1 => contradiction
    case h_2 =>
      cases h
      rw [settle] at hsettle
      rw [items]
      cases hpending : output.pending with
      | none =>
        rw [hpending] at hsettle
        cases hsettle
        exact (List.append_nil _).symm
      | some item =>
        rw [hpending] at hsettle
        dsimp only [bind, Except.bind] at hsettle
        split at hsettle
        case h_1 => contradiction
        case h_2 =>
          split at hsettle
          case h_1 => contradiction
          case h_2 =>
            cases hsettle
            rfl

end ZipOutput

/-- What writes the entries of a zip sink: an archive, and the name of an entry that was begun and
is still without data. -/
structure ZipWriter where
  output : ZipOutput
  begun : Option String

namespace ZipWriter

/-- What is reported of a fault of the archive, which has its own cause with the same text. -/
def fault (cause : OsError) : Failure :=
  .during (IoError.os cause).message (.ofText (IoError.os cause).message)

/-- The data of an entry is held back, so that it cannot be refused; nor can the directory, unless
the archive is stuck. -/
instance : EntryWriter ZipWriter where
  start writer world entryName :=
    match writer.output.beginEntry world.files entryName with
    | .error e => (⟨{ writer.output with stuck := true }, none⟩, world, .error (fault e))
    | .ok (output, files) => (⟨output, some entryName⟩, world.withFiles files, .ok ())
  write writer world bytes :=
    match writer.begun with
    | none => (writer, world, .ok ())
    | some entryName =>
      (⟨{ writer.output with pending := some (.new entryName bytes) }, none⟩, world, .ok ())
  finish writer world :=
    match writer.output.finish world.files with
    | .ok _ => (writer, world, .ok ())
    | .error e =>
      if writer.output.stuck then
        (writer, world.notice ZipSink.abandonedNotice, .error (fault e))
      else (writer, world, .ok ())
  flush writer world :=
    match writer.output.finish world.files with
    | .error e => (writer, world, .error (.ofText (IoError.os e).message))
    | .ok files => (writer, world.withFiles files, .ok ())

end ZipWriter

/-- Whether a zip sink is a sink of entries: it need not note names, as its items have them. -/
structure ZipSink.SameAs (sink : ZipSink) (entries : EntrySink ZipWriter) : Prop where
  path : entries.path = sink.path
  closed : sink.output = none → entries.closed = true
  opened : ∀ output, sink.output = some output → entries.closed = false
    ∧ entries.writer = ⟨output, none⟩ ∧ entries.written = output.items.map Zip.Item.name

namespace ZipSink

variable {sink : ZipSink} {entries : EntrySink ZipWriter}

theorem sameAs_closed (path : String) (writer : ZipWriter) (written : List String) :
    SameAs ⟨path, none⟩ ⟨path, writer, true, written⟩ where
  path := rfl
  closed _ := rfl
  opened output houtput := by cases houtput

theorem sameAs_opened {path : String} {output : ZipOutput} {written : List String}
    (h : written = output.items.map Zip.Item.name) :
    SameAs ⟨path, some output⟩ ⟨path, ⟨output, none⟩, false, written⟩ where
  path := rfl
  closed hnone := by cases hnone
  opened output' houtput' := by
    cases houtput'
    exact ⟨rfl, rfl, h⟩

theorem SameAs.save (h : sink.SameAs entries) (world : World)
    (qualifiedName entryName content : String) :
    (TextSink.save sink world qualifiedName entryName content).1.SameAs
        (entries.save world qualifiedName entryName content).1
      ∧ (entries.save world qualifiedName entryName content).2
        = (TextSink.save sink world qualifiedName entryName content).2 := by
  obtain ⟨path, output⟩ := sink
  obtain ⟨path', writer, closed, written⟩ := entries
  obtain ⟨rfl, hclosed, hopened⟩ := h
  cases output with
  | none =>
    cases hclosed rfl
    exact ⟨sameAs_closed .., rfl⟩
  | some output =>
    obtain ⟨rfl, rfl, rfl⟩ := hopened output rfl
    have hcontains := contains_iff (rfl : (⟨path', some output⟩ : ZipSink).output = _) entryName
    rw [textSink_save, ZipSink.save, EntrySink.save, if_neg Bool.false_ne_true]
    -- both sinks have the same names, and do nothing for one that they have
    by_cases hold : entryName ∈ output.items.map Zip.Item.name
    · rw [if_pos hold, if_pos (hcontains.2 hold)]
      exact ⟨sameAs_opened rfl, rfl⟩
    · rw [if_neg hold, if_neg (hold ∘ hcontains.1), ZipSink.add]
      dsimp only [EntrySink.add, EntryWriter.start]
      rw [ZipOutput.add_eq_beginEntry]
      cases hbegin : output.beginEntry world.files entryName with
      | error e =>
        exact ⟨sameAs_opened rfl, rfl⟩
      | ok begun =>
        obtain ⟨output', files⟩ := begun
        have hcomplete := ZipOutput.complete_of_beginEntry hbegin
        refine ⟨sameAs_opened ?_, rfl⟩
        have hitems : ZipOutput.items
            { output' with pending := some (.new entryName (Text.Utf8.encode content)) }
              = output.items ++ [.new entryName (Text.Utf8.encode content)] := by
          rw [ZipOutput.items, hcomplete]
          rfl
        rw [hitems, List.map_append]
        rfl

theorem SameAs.close (h : sink.SameAs entries) (world : World) :
    (TextSink.close sink world).1.SameAs (entries.close world).1
      ∧ (entries.close world).2 = (TextSink.close sink world).2 := by
  obtain ⟨path, output⟩ := sink
  obtain ⟨path', writer, closed, written⟩ := entries
  obtain ⟨rfl, hclosed, hopened⟩ := h
  cases output with
  | none =>
    cases hclosed rfl
    exact ⟨sameAs_closed .., rfl⟩
  | some output =>
    obtain ⟨rfl, rfl, rfl⟩ := hopened output rfl
    dsimp only [TextSink.close, ZipSink.close, EntrySink.close, EntryWriter.finish,
      EntryWriter.flush]
    rw [if_neg Bool.false_ne_true]
    cases hfinish : output.finish world.files with
    | ok files =>
      dsimp only
      rw [hfinish]
      exact ⟨sameAs_closed .., rfl⟩
    | error e =>
      cases hstuck : output.stuck with
      | true => exact ⟨sameAs_closed .., rfl⟩
      | false =>
        dsimp only
        rw [if_neg Bool.false_ne_true, if_neg Bool.false_ne_true]
        dsimp only
        rw [hfinish]
        exact ⟨sameAs_closed .., rfl⟩

/-- A zip sink is a sink of entries: calls leave the same world and get the same answers. -/
theorem SameAs.after (h : sink.SameAs entries) (world : World)
    (answers : List (Except Failure Unit)) (calls : List SinkCall) :
    ((⟨sink, world, answers⟩ : InUse ZipSink).after calls).sink.SameAs
        ((⟨entries, world, answers⟩ : InUse (EntrySink ZipWriter)).after calls).sink
      ∧ ((⟨entries, world, answers⟩ : InUse (EntrySink ZipWriter)).after calls).world
        = ((⟨sink, world, answers⟩ : InUse ZipSink).after calls).world
      ∧ ((⟨entries, world, answers⟩ : InUse (EntrySink ZipWriter)).after calls).answers
        = ((⟨sink, world, answers⟩ : InUse ZipSink).after calls).answers := by
  induction calls generalizing sink entries world answers with
  | nil => exact ⟨h, rfl, rfl⟩
  | cons call calls ih =>
    have hanswer : (InUse.answer ⟨sink, world, answers⟩ call).1.SameAs
          (InUse.answer ⟨entries, world, answers⟩ call).1
        ∧ (InUse.answer ⟨entries, world, answers⟩ call).2
          = (InUse.answer ⟨sink, world, answers⟩ call).2 := by
      cases call with
      | save qualifiedName entryName content => exact h.save ..
      | close => exact h.close world
    obtain ⟨his, heq⟩ := hanswer
    have hrest := ih his (InUse.answer ⟨sink, world, answers⟩ call).2.1
      (answers ++ [(InUse.answer ⟨sink, world, answers⟩ call).2.2])
    rw [InUse.after, List.foldl_cons, InUse.after, List.foldl_cons, InUse.call, InUse.call, heq]
    exact hrest

end ZipSink

end Reline
