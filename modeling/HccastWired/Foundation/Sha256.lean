import HccastWired.Foundation.Base64

/-!
# SHA-256

Words are natural numbers below `2 ^ 32`.
-/

namespace HccastWired.Foundation

namespace Sha256

def word (n : Nat) : Nat :=
  n % 4294967296

def rotr (x k : Nat) : Nat :=
  word (x >>> k ||| x <<< (32 - k))

def roundConstants : List Nat :=
  [0x428a2f98, 0x71374491, 0xb5c0fbcf, 0xe9b5dba5, 0x3956c25b, 0x59f111f1, 0x923f82a4, 0xab1c5ed5,
    0xd807aa98, 0x12835b01, 0x243185be, 0x550c7dc3, 0x72be5d74, 0x80deb1fe, 0x9bdc06a7, 0xc19bf174,
    0xe49b69c1, 0xefbe4786, 0x0fc19dc6, 0x240ca1cc, 0x2de92c6f, 0x4a7484aa, 0x5cb0a9dc, 0x76f988da,
    0x983e5152, 0xa831c66d, 0xb00327c8, 0xbf597fc7, 0xc6e00bf3, 0xd5a79147, 0x06ca6351, 0x14292967,
    0x27b70a85, 0x2e1b2138, 0x4d2c6dfc, 0x53380d13, 0x650a7354, 0x766a0abb, 0x81c2c92e, 0x92722c85,
    0xa2bfe8a1, 0xa81a664b, 0xc24b8b70, 0xc76c51a3, 0xd192e819, 0xd6990624, 0xf40e3585, 0x106aa070,
    0x19a4c116, 0x1e376c08, 0x2748774c, 0x34b0bcb5, 0x391c0cb3, 0x4ed8aa4a, 0x5b9cca4f, 0x682e6ff3,
    0x748f82ee, 0x78a5636f, 0x84c87814, 0x8cc70208, 0x90befffa, 0xa4506ceb, 0xbef9a3f7, 0xc67178f2]

/-- The eight working words. -/
structure Words where
  a : Nat
  b : Nat
  c : Nat
  d : Nat
  e : Nat
  f : Nat
  g : Nat
  h : Nat

def initial : Words :=
  ⟨0x6a09e667, 0xbb67ae85, 0x3c6ef372, 0xa54ff53a, 0x510e527f, 0x9b05688c, 0x1f83d9ab, 0x5be0cd19⟩

/-- The message schedule, from the sixteen words that come next. -/
def schedule : Nat → List Nat → List Nat
  | 0, _ => []
  | n + 1, window =>
      let x := window.getD 1 0
      let y := window.getD 14 0
      let s₀ := rotr x 7 ^^^ rotr x 18 ^^^ x >>> 3
      let s₁ := rotr y 17 ^^^ rotr y 19 ^^^ y >>> 10
      window.headD 0 ::
        schedule n (window.tail ++ [word (window.headD 0 + s₀ + window.getD 9 0 + s₁)])

def round (w : Words) (kw : Nat × Nat) : Words :=
  let s₁ := rotr w.e 6 ^^^ rotr w.e 11 ^^^ rotr w.e 25
  let ch := (w.e &&& w.f) ^^^ ((4294967295 ^^^ w.e) &&& w.g)
  let t₁ := w.h + s₁ + ch + kw.1 + kw.2
  let s₀ := rotr w.a 2 ^^^ rotr w.a 13 ^^^ rotr w.a 22
  let maj := (w.a &&& w.b) ^^^ (w.a &&& w.c) ^^^ (w.b &&& w.c)
  ⟨word (t₁ + s₀ + maj), w.a, w.b, w.c, word (w.d + t₁), w.e, w.f, w.g⟩

def compress (w : Words) (block : List Nat) : Words :=
  let r := (roundConstants.zip (schedule 64 block)).foldl round w
  ⟨word (w.a + r.a), word (w.b + r.b), word (w.c + r.c), word (w.d + r.d),
    word (w.e + r.e), word (w.f + r.f), word (w.g + r.g), word (w.h + r.h)⟩

/-- The bytes of a number, most significant first. -/
def bigEndian (count n : Nat) : List Nat :=
  (List.range count).reverse.map fun i => n / 256 ^ i % 256

def pad (data : Bytes) : List Nat :=
  data.map UInt8.toNat ++ 128 :: List.replicate ((119 - data.length % 64) % 64) 0 ++
    bigEndian 8 (8 * data.length)

def toWords : List Nat → List Nat
  | p :: q :: r :: s :: rest => (p * 16777216 + q * 65536 + r * 256 + s) :: toWords rest
  | _ => []

def blocks : Nat → List Nat → List (List Nat)
  | 0, _ => []
  | n + 1, words => words.take 16 :: blocks n (words.drop 16)

def hexDigits : List Char :=
  "0123456789abcdef".toList

def hexWord (n : Nat) : List Char :=
  (List.range 8).reverse.map fun i => hexDigits.getD (n / 16 ^ i % 16) '0'

def hexdigest (data : Bytes) : String :=
  let words := toWords (pad data)
  let w := (blocks (words.length / 16) words).foldl compress initial
  String.ofList ([w.a, w.b, w.c, w.d, w.e, w.f, w.g, w.h].flatMap hexWord)

example : hexdigest "abc".toUTF8.toList =
    "ba7816bf8f01cfea414140de5dae2223b00361a396177a9cb410ff61f20015ad" := by decide +kernel

theorem hexWord_mem (n : Nat) : ∀ c ∈ hexWord n, c ∈ hexDigits := by
  intro c hc
  obtain ⟨i, -, rfl⟩ := List.mem_map.mp hc
  exact (by decide : ∀ d < 16, hexDigits.getD d '0' ∈ hexDigits) _
    (Nat.mod_lt _ (by decide))

theorem hexdigest_mem (data : Bytes) : ∀ c ∈ (hexdigest data).toList, c ∈ hexDigits := by
  intro c hc
  simp only [hexdigest, String.toList_ofList, List.mem_flatMap] at hc
  obtain ⟨n, -, hc⟩ := hc
  exact hexWord_mem n c hc

theorem hexdigest_length (data : Bytes) : (hexdigest data).toList.length = 64 := by
  simp [hexdigest, hexWord]

end Sha256

end HccastWired.Foundation
