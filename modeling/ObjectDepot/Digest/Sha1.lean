import ObjectDepot.Digest.Block

/-!
# SHA-1

The digest has twenty bytes for every message (`digest_length`).
-/

namespace ObjectDepot.Sha1

/-- The chaining value: five words. -/
structure State where
  a : UInt32
  b : UInt32
  c : UInt32
  d : UInt32
  e : UInt32
  deriving DecidableEq

/-- The chaining value before the first block. -/
def State.initial : State :=
  ⟨0x67452301, 0xefcdab89, 0x98badcfe, 0x10325476, 0xc3d2e1f0⟩

/-- Word by word addition. -/
def State.add (s t : State) : State :=
  ⟨s.a + t.a, s.b + t.b, s.c + t.c, s.d + t.d, s.e + t.e⟩

/-- The words in order. -/
def State.words (s : State) : List UInt32 :=
  [s.a, s.b, s.c, s.d, s.e]

/-- The four stages of twenty rounds each. -/
inductive Stage where
  | choice
  | parityLow
  | majority
  | parityHigh
  deriving DecidableEq

/-- The constant of a stage. -/
def Stage.constant : Stage → UInt32
  | .choice => 0x5a827999
  | .parityLow => 0x6ed9eba1
  | .majority => 0x8f1bbcdc
  | .parityHigh => 0xca62c1d6

/-- How a stage joins three words. -/
def Stage.join : Stage → UInt32 → UInt32 → UInt32 → UInt32
  | .choice, b, c, d => (b &&& c) ||| (~~~b &&& d)
  | .majority, b, c, d => (b &&& c) ||| (b &&& d) ||| (c &&& d)
  | .parityLow, b, c, d | .parityHigh, b, c, d => b ^^^ c ^^^ d

/-- The stage of each of the eighty rounds. -/
def stages : List Stage :=
  List.replicate 20 .choice ++ List.replicate 20 .parityLow ++ List.replicate 20 .majority
    ++ List.replicate 20 .parityHigh

/-- The word that follows a window of sixteen words of the message schedule. -/
def nextWord (window : List UInt32) : UInt32 :=
  rotateLeft (window.getD 13 0 ^^^ window.getD 8 0 ^^^ window.getD 2 0 ^^^ window.getD 0 0) 1

/-- One round of a stage with its word. -/
def State.round (s : State) (stage : Stage) (word : UInt32) : State :=
  ⟨rotateLeft s.a 5 + stage.join s.b s.c s.d + s.e + stage.constant + word,
   s.a, rotateLeft s.b 30, s.c, s.d⟩

/-- The rounds for a list of stages; `window` holds the next sixteen words of the schedule. -/
def rounds : List Stage → List UInt32 → State → State
  | k :: ks, w :: ws, s => rounds ks (ws ++ [nextWord (w :: ws)]) (s.round k w)
  | _, _, s => s

/-- Takes the chaining value past one block of sixteen words. -/
def compress (s : State) (block : List UInt32) : State :=
  s.add (rounds stages block s)

/-- The SHA-1 digest of a message. -/
def digest (message : Bytes) : Bytes :=
  ((messageBlocks message).foldl compress State.initial).words.flatMap bigEndian

/-- A digest has twenty bytes. -/
theorem digest_length (message : Bytes) : (digest message).length = 20 := rfl

end ObjectDepot.Sha1
