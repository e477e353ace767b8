/-
  Reline.Proofs.Sink.Calls

  Sequences of calls of a sink.

  A sink is given texts and closed, in any order and as often as its user likes.
  Each call leaves a sink and a world to the next one, and gives an answer.
-/

import Mathlib.Data.List.Induction
import Reline.Sink.Basic

namespace Reline

/-- A call of a sink. -/
inductive SinkCall where
  /-- It is given a text. -/
  | save (qualifiedName entryName content : String)
  /-- It is closed. -/
  | close
deriving DecidableEq, Repr

/-- A sink in use: the world that it acts on, and the answers that it gave, the latest last. -/
structure InUse (σ : Type) where
  sink : σ
  world : World
  answers : List (Except Failure Unit)

namespace InUse

variable {σ : Type} [TextSink σ]

/-- What a sink leaves when it is called, and its answer. -/
def answer (use : InUse σ) : SinkCall → σ × World × Except Failure Unit
  | .save qualifiedName entryName content =>
    TextSink.save use.sink use.world qualifiedName entryName content
  | .close => TextSink.close use.sink use.world

/-- A call more. -/
def call (use : InUse σ) (call : SinkCall) : InUse σ :=
  ⟨(use.answer call).1, (use.answer call).2.1, use.answers ++ [(use.answer call).2.2]⟩

/-- Calls more, one after the other. -/
def after (use : InUse σ) (calls : List SinkCall) : InUse σ :=
  calls.foldl call use

theorem after_append (use : InUse σ) (calls later : List SinkCall) :
    use.after (calls ++ later) = (use.after calls).after later :=
  List.foldl_append

theorem after_concat (use : InUse σ) (calls : List SinkCall) (last : SinkCall) :
    use.after (calls ++ [last]) = (use.after calls).call last :=
  use.after_append calls [last]

/-- What holds at first and is kept by each call holds after all calls. -/
theorem after_induction {P : List SinkCall → InUse σ → Prop} {use : InUse σ} (hstart : P [] use)
    (hcall : ∀ calls use last, P calls use → P (calls ++ [last]) (use.call last))
    (calls : List SinkCall) : P calls (use.after calls) := by
  induction calls using List.reverseRecOn with
  | nil => exact hstart
  | append_singleton calls last ih =>
    rw [after_concat]
    exact hcall calls _ last ih

end InUse

end Reline
