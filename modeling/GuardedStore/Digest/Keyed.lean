import GuardedStore.Digest.Sha256
import GuardedStore.Refusal
import GuardedStore.Text.Quoted

/-! # Keyed hashes

The hash that passwords and sessions are known by depends on a secret: HMAC with SHA-256, shown in
hexadecimal. Operations take the hash as a function of texts, so that what they promise rests on
properties of the hash and not on its making.
-/

namespace GuardedStore

abbrev Hasher := String → String

namespace Keyed

def blockLength : Nat := 64

/-- A key filled up with zeros to a block; a longer one is hashed first. -/
def blockKey (key : List UInt8) : List UInt8 :=
  let key := if blockLength < key.length then Sha256.hash key else key
  key ++ List.replicate (blockLength - key.length) 0

def hash (key message : List UInt8) : List UInt8 :=
  let key := blockKey key
  let inner := Sha256.hash (key.map (· ^^^ 0x36) ++ message)
  Sha256.hash (key.map (· ^^^ 0x5c) ++ inner)

def toHex (bytes : List UInt8) : String :=
  String.ofList (bytes.flatMap fun b => Text.hexDigits 2 b.toNat)

def hasher (secret : String) : Hasher := fun text =>
  toHex (hash secret.toUTF8.toList text.toUTF8.toList)

end Keyed

/-- Whether a text has the hash that is given. A hash outside ASCII cannot be compared. -/
def Hasher.verify (hasher : Hasher) (text digest : String) : Except Fault Bool :=
  if digest.toList.all fun c => c.toNat < 128 then .ok (hasher text = digest)
  else .error .wrongKind

end GuardedStore
