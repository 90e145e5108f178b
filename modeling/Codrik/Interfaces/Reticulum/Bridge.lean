import Codrik.Interfaces.Reticulum.Protocol

/-! How lines are read from the bridge (`interfaces/reticulum/bridge.rs`), and what becomes of
them when calls of `next_event` are dropped.
-/

namespace Codrik.Interfaces.Reticulum

-----------------------------------------------------------------------------------------
-- Reading
-----------------------------------------------------------------------------------------

/-- A buffered reader, and what its next reads of the pipe get as they come; a read of nothing
is the end of the pipe.
-/
structure BufReader where
  buffer : List UInt8
  reads : List (List UInt8)
deriving DecidableEq

/-- A call that has returned, or whose future is dropped while it waits for the pipe. -/
inductive Call (α : Type)
  | completed (result : Except String α)
  | dropped

/-- What a call makes of the bytes it has at hand. -/
inductive Taken
  | tooLarge
  | complete (line rest : List UInt8)
  | more (line : List UInt8)

/-- One round of `read_protocol_line`: what it consumes ends with the first line end, or with
the bytes themselves.
-/
def takeLine (line available : List UInt8) : Taken :=
  let consumed := match available.findIdx? (· = 10) with
    | some index => index + 1
    | none => available.length
  if line.length + consumed > maxProtocolLineBytes then
    .tooLarge
  else
    let line := line ++ available.take consumed
    if line.getLast? = some 10 then
      .complete line.dropLast (available.drop consumed)
    else
      .more line

/-- The rounds of `read_protocol_line` that wait for the pipe, when the future is dropped after
`patience` reads; its line is dropped with it.
-/
def awaitLine : Nat → List UInt8 → List (List UInt8) → Call (List UInt8) × BufReader
  | _, _, [] => (.dropped, ⟨[], []⟩)
  | 0, _, reads => (.dropped, ⟨[], reads⟩)
  | patience + 1, line, available :: reads =>
      if available = [] then
        (.completed (.error "Reticulum bridge stdout closed"), ⟨[], reads⟩)
      else
        match takeLine line available with
        | .tooLarge =>
            (.completed (.error "Reticulum bridge protocol line is too large"),
              ⟨available, reads⟩)
        | .complete line rest => (.completed (.ok line), ⟨rest, reads⟩)
        | .more line => awaitLine patience line reads

/-- `read_protocol_line`: the buffer is taken before the pipe is read. -/
def readProtocolLine (patience : Nat) (reader : BufReader) : Call (List UInt8) × BufReader :=
  if reader.buffer = [] then
    awaitLine patience [] reader.reads
  else
    match takeLine [] reader.buffer with
    | .tooLarge =>
        (.completed (.error "Reticulum bridge protocol line is too large"), reader)
    | .complete line rest => (.completed (.ok line), ⟨rest, reader.reads⟩)
    | .more line => awaitLine patience line reader.reads

section Events

-- what `serde_json` reads from a line
variable (parse : List UInt8 → Except String BridgeEvent)

/-- `next_event` -/
def nextEvent (patience : Nat) (reader : BufReader) : Call BridgeEvent × BufReader :=
  match readProtocolLine patience reader with
  | (.dropped, reader) => (.dropped, reader)
  | (.completed result, reader) => (.completed (result >>= decodeEvent parse), reader)

/-- Calls one after the other, each dropped after its number of reads unless it has returned by
then: the results of those that have returned.
-/
def nextEvents : List Nat → BufReader → List (Except String BridgeEvent) × BufReader
  | [], reader => ([], reader)
  | patience :: later, reader =>
      match nextEvent parse patience reader with
      | (.dropped, reader) => nextEvents later reader
      | (.completed result, reader) =>
          let (results, reader) := nextEvents later reader
          (result :: results, reader)

end Events

end Codrik.Interfaces.Reticulum
