/-!
A random stream: ChaCha with 12 rounds under a 256-bit key, stream number zero and a 64-bit block
counter from zero, read as one sequence of bytes.
-/

namespace ClusterKeeper.ChaCha

def rotateLeft (word count : UInt32) : UInt32 := word <<< count ||| word >>> (32 - count)

/-- The sixteen words of the state, row by row. -/
abbrev Block := Array UInt32

def quarterRound (s : Block) (a b c d : Nat) : Block :=
  let wa := s[a]?.getD 0
  let wb := s[b]?.getD 0
  let wc := s[c]?.getD 0
  let wd := s[d]?.getD 0
  let wa := wa + wb
  let wd := rotateLeft (wd ^^^ wa) 16
  let wc := wc + wd
  let wb := rotateLeft (wb ^^^ wc) 12
  let wa := wa + wb
  let wd := rotateLeft (wd ^^^ wa) 8
  let wc := wc + wd
  let wb := rotateLeft (wb ^^^ wc) 7
  (((s.setIfInBounds a wa).setIfInBounds b wb).setIfInBounds c wc).setIfInBounds d wd

def doubleRound (s : Block) : Block :=
  [(0, 4, 8, 12), (1, 5, 9, 13), (2, 6, 10, 14), (3, 7, 11, 15),
   (0, 5, 10, 15), (1, 6, 11, 12), (2, 7, 8, 13), (3, 4, 9, 14)].foldl
    (fun s (a, b, c, d) => quarterRound s a b c d) s

/-- "expand 32-byte k". -/
def constants : List UInt32 := [0x61707865, 0x3320646E, 0x79622D32, 0x6B206574]

def initial (key : List UInt32) (counter : UInt64) : Block :=
  (constants ++ key ++ [counter.toUInt32, (counter >>> 32).toUInt32, 0, 0]).toArray

def bytesOfWord (word : UInt32) : List UInt8 :=
  [word.toUInt8, (word >>> 8).toUInt8, (word >>> 16).toUInt8, (word >>> 24).toUInt8]

def block (key : List UInt32) (counter : UInt64) : List UInt8 :=
  let start := initial key counter
  let mixed := (List.range 6).foldl (fun s _ => doubleRound s) start
  (start.toList.zipWith (· + ·) mixed.toList).flatMap bytesOfWord

/-- A place in the stream of a key: `pending` are the bytes before block `counter`. -/
structure Stream where
  key : List UInt32
  counter : UInt64
  pending : List UInt8

namespace Stream

/-- The constant of the generator that spreads a 64-bit seed over the key. -/
def seedStep (state : UInt64) : UInt64 := state * 6364136223846793005 + 11634580027462260723

/-- The output of that generator: a xor-shifted word, rotated by the top five bits. -/
def seedWord (state : UInt64) : UInt32 :=
  let word := (((state >>> 18) ^^^ state) >>> 27).toUInt32
  let count := (state >>> 59).toUInt32
  word >>> count ||| word <<< ((32 - count) % 32)

def seedWords : Nat → UInt64 → List UInt32
  | 0, _ => []
  | count + 1, state => seedWord (seedStep state) :: seedWords count (seedStep state)

def ofSeed (seed : UInt64) : Stream := ⟨seedWords 8 seed, 0, []⟩

def refill : Nat → Stream → Stream
  | 0, s => s
  | blocks + 1, s =>
    refill blocks { s with counter := s.counter + 1, pending := s.pending ++ block s.key s.counter }

def take (count : Nat) (s : Stream) : List UInt8 × Stream :=
  -- as many whole blocks as the pending bytes fall short by
  let s := refill ((count - s.pending.length + 63) / 64) s
  (s.pending.take count, { s with pending := s.pending.drop count })

/-- The next eight bytes as a little-endian number. -/
def nextWord (s : Stream) : UInt64 × Stream :=
  let (bytes, s) := s.take 8
  (bytes.foldr (fun byte n => byte.toUInt64 ||| n <<< 8) 0, s)

end Stream

end ClusterKeeper.ChaCha
