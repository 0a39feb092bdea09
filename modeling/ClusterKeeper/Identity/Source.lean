import ClusterKeeper.Cipher.ChaCha
import ClusterKeeper.Encoding.Bytes
import ClusterKeeper.Identity.Basic

/-!
Where identities come from: random sources, and the generator that draws a key seed from one and a
cluster secret from another.
-/

namespace ClusterKeeper

/-- A random source with state `σ`: asked for a number of bytes it gives them, or says why not. -/
abbrev RandomSource (σ : Type) := Nat → σ → Except String (List UInt8) × σ

namespace RandomSource

/-- A source that hands out the bytes of its state and then has no more. -/
def tape : RandomSource (List UInt8) := fun count bytes =>
  if count ≤ bytes.length then (.ok (bytes.take count), bytes.drop count)
  else (.error "entropy unavailable", bytes)

def stream : RandomSource ChaCha.Stream := fun count s =>
  let (bytes, s) := s.take count
  (.ok bytes, s)

end RandomSource

namespace Identity

def generateSeed {σ : Type} (source : RandomSource σ) (state : σ) :
    Except IdentityError (List UInt8) × σ :=
  let (drawn, state) := source 32 state
  (drawn.mapError .entropy, state)

def generateClusterSecret {σ : Type} (source : RandomSource σ) (state : σ) :
    Except IdentityError String × σ :=
  let (drawn, state) := source 32 state
  ((drawn.map Hex.encode).mapError .entropy, state)

/-- Draws a key and then a cluster secret; without a key the secret is not drawn. -/
def generate {σ τ : Type} (keys : RandomSource σ) (secrets : RandomSource τ) (keyState : σ)
    (secretState : τ) : Except IdentityError Identity × σ × τ :=
  match generateSeed keys keyState with
  | (.error e, keyState) => (.error e, keyState, secretState)
  | (.ok seed, keyState) =>
    let (secret, secretState) := generateClusterSecret secrets secretState
    (secret.map (ofSeed seed), keyState, secretState)

end Identity

inductive IdentitySource where
  /-- Keys come from a stream, each secret from a stream of its own that the first one seeds. -/
  | seeded (keys : ChaCha.Stream)
  /-- The random source behind it is always exhausted. -/
  | failing

namespace IdentitySource

def ofSeed (seed : UInt64) : IdentitySource := .seeded (ChaCha.Stream.ofSeed seed)

def next : IdentitySource → Except IdentityError Identity × IdentitySource
  | .failing => (.error (.entropy "entropy unavailable"), .failing)
  | .seeded keys =>
    let (seed, keys) := keys.nextWord
    let (identity, keys, _) :=
      Identity.generate RandomSource.stream RandomSource.stream keys (ChaCha.Stream.ofSeed seed)
    (identity, .seeded keys)

end IdentitySource

/-- The random source of a process, which has no stream until it is seeded. -/
structure ProcessSource where
  secrets : Option ChaCha.Stream := none

namespace ProcessSource

/-- Gives the source its seed; a source that has one keeps it. -/
def seed (source : ProcessSource) (entropy : List UInt8) : ProcessSource :=
  match source.secrets with
  | some _ => source
  | none => ⟨some (ChaCha.Stream.ofSeed (Varint.seedOfBytes entropy))⟩

/-- An identity whose key comes from `entropy` and whose secret comes from the process. -/
def generate (source : ProcessSource) (entropy : List UInt8) :
    Except IdentityError Identity × ProcessSource :=
  match source.secrets with
  | none => (.error .unseeded, source)
  | some secrets =>
    let (identity, _, secrets) :=
      Identity.generate RandomSource.tape RandomSource.stream entropy secrets
    (identity, ⟨some secrets⟩)

end ProcessSource

end ClusterKeeper
