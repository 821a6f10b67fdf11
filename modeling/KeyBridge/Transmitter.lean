/-!
# Transmitters

A transmitter takes the words that carry commands to the device, or refuses them.
-/

namespace KeyBridge

/-- Who carries commands to the device. -/
inductive Transmitter where
  /-- Words wait in a queue until they are sent; the queue may have a limit. -/
  | queue (limit : Option Nat) (waiting : List UInt32)
  /-- There is no way to the device. -/
  | receiveOnly
deriving DecidableEq, Repr

namespace Transmitter

/-- Whether the next word would be taken. -/
def accepts : Transmitter → Bool
  | queue (some limit) waiting => waiting.length < limit
  | queue none _ => true
  | receiveOnly => false

/-- Offers a word. The word is appended to the queue if it is taken. -/
def offer (t : Transmitter) (word : UInt32) : Transmitter :=
  match t with
  | queue limit waiting => if t.accepts then queue limit (waiting ++ [word]) else t
  | receiveOnly => receiveOnly

/-- The words that wait to be sent. -/
def waiting : Transmitter → List UInt32
  | queue _ words => words
  | receiveOnly => []

/-- Sends everything that waits. -/
def flush : Transmitter → Transmitter
  | queue limit _ => queue limit []
  | receiveOnly => receiveOnly

end Transmitter

end KeyBridge
