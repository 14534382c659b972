import BsitLabs.Foundation.KeyStream

/-!
# The cryptographic service provider

The TCP programs call the Windows CSP and nothing else for cryptography.  The
provider is not part of the repository, so it is a parameter: a `Csp` says what
its calls compute, and `Csp.Lawful` states what its documentation promises about
blobs.

A server-side `HCRYPTKEY` is the number of the `CryptGenKey` call that produced
it, counted from one; zero is the invalid handle every context starts with.  The
keystream of each handle is arbitrary, which is all that is said about RC4 beyond
"XOR with a keystream that restarts at every `Final = TRUE` call".  A public key
is identified with its `PUBLICKEYBLOB`, and a client's key pair with the blob of
its public half.
-/

namespace BsitLabs
namespace Tcp

/-- What the provider computes. -/
structure Csp where
  /-- The keystream of a generated session key. -/
  keystream : ℕ → KeyStream
  /-- Whether `CryptImportKey` accepts these bytes as a public-key blob. -/
  wellFormed : List UInt8 → Bool
  /-- `CryptExportKey(key, pub, SIMPLEBLOB)`: the session key under a public key. -/
  simpleBlob : ℕ → List UInt8 → List UInt8
  /-- `CryptImportKey` of a session blob with the private half of a key pair. -/
  openBlob : List UInt8 → List UInt8 → Option KeyStream

/-- What the provider's documentation promises: a session key exported under a
public key opens with its private half, and a session blob (12 bytes and one
modulus) is no longer than the public-key blob (20 bytes and one modulus). -/
structure Csp.Lawful (csp : Csp) : Prop where
  /-- Export and import are inverse. -/
  open_simpleBlob : ∀ key pub, csp.wellFormed pub = true →
    csp.openBlob pub (csp.simpleBlob key pub) = some (csp.keystream key)
  /-- The session blob is no longer than the public-key blob. -/
  length_simpleBlob : ∀ key pub, csp.wellFormed pub = true →
    (csp.simpleBlob key pub).length ≤ pub.length

/-- A provider with keystreams of one repeated byte, whose session blob is that
byte.  It is lawful, so the promises are consistent. -/
def Csp.oneByte : Csp where
  keystream key _ := UInt8.ofNat key
  wellFormed pub := pub != []
  simpleBlob key _ := [UInt8.ofNat key]
  openBlob _ blob := blob.head?.map fun b _ => b

theorem Csp.oneByte_lawful : Csp.oneByte.Lawful where
  open_simpleBlob _ _ _ := rfl
  length_simpleBlob _ pub h := by
    cases pub with
    | nil => exact absurd h (by decide)
    | cons b bs => simp [Csp.oneByte]

/-- The key behind a handle; zero is no key. -/
def Csp.keyOf (csp : Csp) (key : ℕ) : Option KeyStream :=
  if key = 0 then none else some (csp.keystream key)

@[simp] theorem Csp.keyOf_zero (csp : Csp) : csp.keyOf 0 = none := rfl

theorem Csp.keyOf_of_ne_zero (csp : Csp) {key : ℕ} (h : key ≠ 0) :
    csp.keyOf key = some (csp.keystream key) :=
  if_neg h

/-! ## The calls on messages

Each fails on an invalid handle; encryption also fails when the data does not fit
in the buffer length it is told (`ERROR_MORE_DATA`). -/

/-- `CryptEncrypt(key, NULL, TRUE, 0, data, &len, bufLen)`. -/
def cryptEncrypt (key : Option KeyStream) (data : List UInt8) (bufLen : ℕ) :
    Option (List UInt8) :=
  match key with
  | none => none
  | some ks => if data.length ≤ bufLen then some (ks.apply data) else none

/-- `CryptDecrypt(key, NULL, TRUE, 0, data, &len)`. -/
def cryptDecrypt (key : Option KeyStream) (data : List UInt8) : Option (List UInt8) :=
  key.map fun ks => ks.apply data

/-- `crypt_test`: encrypt sixteen bytes and decrypt them again.  `none` is an
assertion failing inside. -/
def cryptTest (key : Option KeyStream) : Option Bool := do
  let testBuf : List UInt8 := [0, 1, 2, 3, 4, 5, 6, 7, 8, 9, 10, 11, 12, 13, 14, 15]
  let buf ← cryptEncrypt key testBuf 1024
  let buf ← cryptDecrypt key buf
  return buf == testBuf

@[simp] theorem cryptEncrypt_none (data : List UInt8) (bufLen : ℕ) :
    cryptEncrypt none data bufLen = none := rfl

theorem cryptEncrypt_some (ks : KeyStream) {data : List UInt8} {bufLen : ℕ}
    (h : data.length ≤ bufLen) : cryptEncrypt (some ks) data bufLen = some (ks.apply data) :=
  if_pos h

/-- Encryption succeeds exactly with a key and room for the data. -/
theorem cryptEncrypt_eq_some_iff {key : Option KeyStream} {data out : List UInt8}
    {bufLen : ℕ} :
    cryptEncrypt key data bufLen = some out ↔
      ∃ ks, key = some ks ∧ data.length ≤ bufLen ∧ out = ks.apply data := by
  cases key with
  | none => simp
  | some ks =>
    by_cases h : data.length ≤ bufLen
    · simp [cryptEncrypt, h, eq_comm]
    · simp [cryptEncrypt, h]

/-- **The self-test passes with every valid key.** -/
theorem cryptTest_some (ks : KeyStream) : cryptTest (some ks) = some true := by
  simp [cryptTest, cryptEncrypt, cryptDecrypt]

end Tcp
end BsitLabs
