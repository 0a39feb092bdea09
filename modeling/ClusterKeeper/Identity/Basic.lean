import ClusterKeeper.Cipher.Ed25519
import ClusterKeeper.Encoding.Base64
import ClusterKeeper.Encoding.Bytes
import ClusterKeeper.Text

/-!
The identity of a cluster: the key of its bootstrap peer, the peer id that names that key, and the
secret that all peers share. `Identity.ofEncoded` reads the two texts that a Secret keeps of it.
-/

namespace ClusterKeeper

inductive IdentityError where
  /-- A random source gave no bytes. -/
  | entropy (reason : String)
  /-- The process-wide random source is used before it has a seed. -/
  | unseeded
  /-- The process-wide random source was left locked by a failure. -/
  | poisoned
  /-- A stored key or cluster secret cannot be used. -/
  | invalidKey (reason : String)
  /-- The peer id has no text. -/
  | peerId (reason : String)
deriving DecidableEq, Repr

def IdentityError.message : IdentityError → String
  | .entropy reason => "entropy source failed: " ++ reason
  | .unseeded => "process random source has not been seeded"
  | .poisoned => "process random source lock poisoned"
  | .invalidKey reason => "invalid private key: " ++ reason
  | .peerId reason => "peer id encoding failed: " ++ reason

/-- The bytes before a key in its envelope: key type Ed25519, then the length of the key. -/
def keyHeader (length : UInt8) : List UInt8 := [0x08, 0x01, 0x12, length]

/-- The name of a peer: the base58 text of the identity multihash of its public key. -/
structure PeerId where
  text : String
deriving DecidableEq, Repr

def PeerId.multihash (publicKey : List UInt8) : List UInt8 :=
  [0x00, 0x24] ++ keyHeader 0x20 ++ publicKey

def PeerId.ofPublicKey (publicKey : List UInt8) : PeerId :=
  ⟨Base58.encode (PeerId.multihash publicKey)⟩

/-- Wraps a digest as an identity multihash: code 0, the length, the digest, which has room for 64
bytes. -/
def PeerId.wrap (digest : List UInt8) : Except IdentityError (List UInt8) :=
  if digest.length ≤ 64 then .ok (0x00 :: UInt8.ofNat digest.length :: digest)
  else .error (.peerId ("Invalid multihash size " ++ toString digest.length ++ "."))

/-- The peer id of a public key, step by step; there is none if the multihash has no room for the key.
For a key of 32 bytes it is `ofPublicKey`. -/
def PeerId.derive (publicKey : List UInt8) : Except IdentityError PeerId := do
  let multihash ← wrap (keyHeader 0x20 ++ publicKey)
  return ⟨String.ofList (Base58.withoutCode (Base58.multibase multihash))⟩

/-- The private key in its envelope, the peer id, and the cluster secret in hexadecimal. -/
structure Identity where
  privateKey : List UInt8
  peerId : PeerId
  clusterSecret : String
deriving DecidableEq, Repr

namespace Identity

/-- The seed and the public key that it gives, in the envelope of a private key. -/
def encodePrivateKey (seed : List UInt8) : List UInt8 :=
  keyHeader 0x40 ++ seed ++ Ed25519.publicKey seed

def ofSeed (seed : List UInt8) (clusterSecret : String) : Identity :=
  { privateKey := encodePrivateKey seed
    peerId := PeerId.ofPublicKey (Ed25519.publicKey seed)
    clusterSecret }

def privateKeyBase64 (identity : Identity) : String := Base64.encode identity.privateKey

inductive KeyFault where
  | header
  | length (found : Nat)
  | publicKey
deriving DecidableEq, Repr

def KeyFault.message : KeyFault → String
  | .header => "not a libp2p Ed25519 private key"
  | .length found => "expected 64 key bytes, got " ++ toString found
  | .publicKey => "public key does not match private key"

/-- The seed of an enveloped private key, whose second half is the public key of the first. -/
def decodePrivateKey (bytes : List UInt8) : Except KeyFault (List UInt8) :=
  if bytes.take 4 ≠ keyHeader 0x40 then .error .header
  else
    let key := bytes.drop 4
    if key.length ≠ 64 then .error (.length key.length)
    else if Ed25519.publicKey (key.take 32) ≠ key.drop 32 then .error .publicKey
    else .ok (key.take 32)

/-- Whether a text is 64 lowercase hexadecimal digits. -/
def isClusterSecret (text : String) : Bool :=
  text.toList.length = 64 && text.toList.all Hex.isDigit

/-- Reads the base64 text of a private key, blanks around it or not, and a cluster secret. -/
def ofEncoded (privateKey clusterSecret : String) : Except IdentityError Identity := do
  let bytes ← (Base64.decode (Text.trim privateKey)).mapError fun fault =>
    .invalidKey ("base64: " ++ fault.message)
  let seed ← (decodePrivateKey bytes).mapError fun fault => .invalidKey fault.message
  if isClusterSecret clusterSecret then return ofSeed seed clusterSecret
  else throw (.invalidKey "cluster secret must be 64 lowercase hex characters")

/-- The description of an identity, which shows nothing secret. -/
def describe (identity : Identity) : String :=
  "IdentityMaterial \x7b private_key: \"<redacted>\", peer_id: PeerId(\"" ++
    identity.peerId.text ++ "\"), cluster_secret: \"<redacted>\" \x7d"

end Identity

end ClusterKeeper
