/-
  Reline.Zip.Deflate

  Deflate streams of given data.

  Data is compressed, and the stream is taken if it gives the data back. Stored
  blocks stand in for any other stream: every reader accepts them. So a stream
  always gives its data back, however the data was compressed.
-/

import Reline.Zip.Deflate.Encode

namespace Reline.Zip

namespace Deflate

/-- The greatest number of bytes in a stored block. -/
def storedLimit : Nat := 65535

/-- Data in stored blocks, the last one marked. -/
def stored (data : Bytes) : Bytes :=
  let block := data.take storedLimit
  let last := data.length ≤ storedLimit
  (if last then 1 else 0) :: (Bytes.ofNatLE 2 block.length
    ++ Bytes.ofNatLE 2 (storedLimit - block.length) ++ block
    ++ if last then [] else stored (data.drop storedLimit))
termination_by data.length
decreasing_by
  rename_i notLast
  simp only [List.length_drop, storedLimit] at *
  omega

/-- Data compressed. -/
def compressed (data : Bytes) : Bytes :=
  let buffer := data.toArray
  encodeBlocks buffer (blocksOf buffer)

end Deflate

/-- Whether a stream gives some data back. -/
def Deflate.givesBack (stream data : Bytes) : Bool :=
  match inflate stream with
  | .ok found => found = data
  | .error _ => false

/-- A deflate stream of data. -/
def deflate (data : Bytes) : Bytes :=
  let compressed := Deflate.compressed data
  if Deflate.givesBack compressed data then compressed else Deflate.stored data

end Reline.Zip
