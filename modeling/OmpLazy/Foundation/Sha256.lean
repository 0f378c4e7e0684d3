import OmpLazy.Foundation.JsonText
import OmpLazy.Foundation.Text

/-! The SHA-256 digest of a text, in hexadecimal. -/

namespace OmpLazy.Foundation.Sha256

abbrev Word := BitVec 32

def roundConstants : List Word :=
  [0x428a2f98, 0x71374491, 0xb5c0fbcf, 0xe9b5dba5, 0x3956c25b, 0x59f111f1, 0x923f82a4, 0xab1c5ed5,
    0xd807aa98, 0x12835b01, 0x243185be, 0x550c7dc3, 0x72be5d74, 0x80deb1fe, 0x9bdc06a7, 0xc19bf174,
    0xe49b69c1, 0xefbe4786, 0x0fc19dc6, 0x240ca1cc, 0x2de92c6f, 0x4a7484aa, 0x5cb0a9dc, 0x76f988da,
    0x983e5152, 0xa831c66d, 0xb00327c8, 0xbf597fc7, 0xc6e00bf3, 0xd5a79147, 0x06ca6351, 0x14292967,
    0x27b70a85, 0x2e1b2138, 0x4d2c6dfc, 0x53380d13, 0x650a7354, 0x766a0abb, 0x81c2c92e, 0x92722c85,
    0xa2bfe8a1, 0xa81a664b, 0xc24b8b70, 0xc76c51a3, 0xd192e819, 0xd6990624, 0xf40e3585, 0x106aa070,
    0x19a4c116, 0x1e376c08, 0x2748774c, 0x34b0bcb5, 0x391c0cb3, 0x4ed8aa4a, 0x5b9cca4f, 0x682e6ff3,
    0x748f82ee, 0x78a5636f, 0x84c87814, 0x8cc70208, 0x90befffa, 0xa4506ceb, 0xbef9a3f7, 0xc67178f2]

/-- The eight words of the state. -/
structure State where
  a : Word
  b : Word
  c : Word
  d : Word
  e : Word
  f : Word
  g : Word
  h : Word

namespace State

def initial : State :=
  ⟨0x6a09e667, 0xbb67ae85, 0x3c6ef372, 0xa54ff53a, 0x510e527f, 0x9b05688c, 0x1f83d9ab, 0x5be0cd19⟩

def words (state : State) : List Word :=
  [state.a, state.b, state.c, state.d, state.e, state.f, state.g, state.h]

def add (state other : State) : State :=
  ⟨state.a + other.a, state.b + other.b, state.c + other.c, state.d + other.d, state.e + other.e,
    state.f + other.f, state.g + other.g, state.h + other.h⟩

def round (state : State) (constant word : Word) : State :=
  let sigma := state.e.rotateRight 6 ^^^ state.e.rotateRight 11 ^^^ state.e.rotateRight 25
  let choice := (state.e &&& state.f) ^^^ (~~~state.e &&& state.g)
  let first := state.h + sigma + choice + constant + word
  let sigma' := state.a.rotateRight 2 ^^^ state.a.rotateRight 13 ^^^ state.a.rotateRight 22
  let majority := (state.a &&& state.b) ^^^ (state.a &&& state.c) ^^^ (state.b &&& state.c)
  ⟨first + sigma' + majority, state.a, state.b, state.c, state.d + first, state.e, state.f, state.g⟩

end State

/-- The next word of a schedule, from the last sixteen with the oldest first. -/
def nextWord : List Word → Word
  | [w0, w1, _, _, _, _, _, _, _, w9, _, _, _, _, w14, _] =>
    let early := w1.rotateRight 7 ^^^ w1.rotateRight 18 ^^^ (w1 >>> 3)
    let late := w14.rotateRight 17 ^^^ w14.rotateRight 19 ^^^ (w14 >>> 10)
    w0 + early + w9 + late
  | _ => 0

/-- The rounds of a block, with the sixteen words that are still to come. -/
def rounds : State → List Word → List Word → State
  | state, [], _ => state
  | state, constant :: constants, window =>
    rounds (state.round constant (window.headD 0)) constants (window.tail ++ [nextWord window])

def compress (state : State) (block : List Word) : State := state.add (rounds state roundConstants block)

/-- A number as so many bytes. -/
def bigEndian (width n : ℕ) : List ℕ := (List.range width).map fun i ↦ n / 256 ^ (width - 1 - i) % 256

def padded (bytes : List ℕ) : List ℕ :=
  bytes ++ 0x80 :: (List.replicate ((119 - bytes.length % 64) % 64) 0 ++ bigEndian 8 (8 * bytes.length))

def wordOf (bytes : List ℕ) : Word := BitVec.ofNat 32 (bytes.foldl (fun n byte ↦ 256 * n + byte) 0)

/-- A list in parts of so many elements. -/
def chunks {α : Type} (size : ℕ) : ℕ → List α → List (List α)
  | 0, _ => []
  | count + 1, xs => xs.take size :: chunks size count (xs.drop size)

def bytesOf (text : String) : List ℕ := text.toUTF8.data.toList.map UInt8.toNat

def finalState (bytes : List ℕ) : State :=
  let words := (chunks 4 ((padded bytes).length / 4) (padded bytes)).map wordOf
  (chunks 16 (words.length / 16) words).foldl compress .initial

def hexWord (word : Word) : List Char :=
  (List.range 8).map fun i ↦ JsonText.hexDigit (word.toNat / 16 ^ (7 - i) % 16)

def digest (text : String) : String := String.ofList ((finalState (bytesOf text)).words.flatMap hexWord)

theorem isLowerHex_hexDigit {n : ℕ} (h : n < 16) : Text.isLowerHex (JsonText.hexDigit n) = true := by
  have hall : ∀ n : Fin 16, Text.isLowerHex (JsonText.hexDigit n) = true := by decide
  exact hall ⟨n, h⟩

theorem digest_hex (text : String) : Text.isLowerHexOf 64 (digest text) = true := by
  rw [Text.isLowerHexOf, digest, String.toList_ofList, Text.matchesClasses_replicate]
  refine ⟨rfl, fun c hc ↦ ?_⟩
  obtain ⟨word, -, hc⟩ := List.mem_flatMap.mp hc
  obtain ⟨i, -, rfl⟩ := List.mem_map.mp hc
  exact isLowerHex_hexDigit (Nat.mod_lt _ (by omega))

example : digest "abc" = "ba7816bf8f01cfea414140de5dae2223b00361a396177a9cb410ff61f20015ad" := by decide +kernel

end OmpLazy.Foundation.Sha256
