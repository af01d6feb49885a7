import Uma.Go.Hex

/-!
# The public keys of a VASP

`PubKeyResponse` is the answer to `GET /.well-known/lnurlpubkey`. It carries the VASP's signing
and encryption public keys as hex strings, and `SigningPubKey` and `EncryptionPubKey` decode them
with `hex.DecodeString`.

**Main result.** `pubKey_eq_ok_iff`: each method returns a key and no error exactly when its hex
string, with its letters lowered, is the hex encoding of that key, so a key is read back from
either case of digits and from nothing else.
-/

namespace Uma

open Go

/-- `PubKeyResponse`, with the two fields its methods read. -/
structure PubKeyResponse where
  signingPubKeyHex : String
  encryptionPubKeyHex : String
deriving DecidableEq

namespace PubKeyResponse

/-- `(*PubKeyResponse).SigningPubKey`: the key bytes and the error. -/
def signingPubKey (r : PubKeyResponse) : List UInt8 × Option GoError :=
  decodeString r.signingPubKeyHex

/-- `(*PubKeyResponse).EncryptionPubKey`: the key bytes and the error. -/
def encryptionPubKey (r : PubKeyResponse) : List UInt8 × Option GoError :=
  decodeString r.encryptionPubKeyHex

/-- Both methods return a key and no error exactly on the hex encodings of that key, in either
case. -/
theorem pubKey_eq_ok_iff (r : PubKeyResponse) (key : List UInt8) :
    (r.signingPubKey = (key, none) ↔ (bytes r.signingPubKeyHex).map toLowerAscii = encode key) ∧
      (r.encryptionPubKey = (key, none) ↔
        (bytes r.encryptionPubKeyHex).map toLowerAscii = encode key) :=
  ⟨decode_eq_ok_iff _ _, decode_eq_ok_iff _ _⟩

end PubKeyResponse

end Uma
