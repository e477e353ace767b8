/-
  Reline.Sink.Basic

  What can take decompiled texts.
-/

import Reline.Failure
import Reline.World

namespace Reline

/-- A destination for decompiled texts, as a state that each call may change. -/
class TextSink (σ : Type) where
  /-- Stores the text of a class under a source entry name. -/
  save : (sink : σ) → World → (qualifiedName entryName content : String) →
    σ × World × Except Failure Unit
  /-- Completes everything that was stored. -/
  close : (sink : σ) → World → σ × World × Except Failure Unit

end Reline
