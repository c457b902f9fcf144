import SecureChat.BigEndian
/-!
# Sha256 — the hash both sides compute

SHA-256 over a list of bytes.  A digest is 32 bytes; as text it is written in lower-case hexadecimal.
-/
namespace SecureChat
namespace Sha256

def roundConstants : List UInt32 := [
  0x428a2f98, 0x71374491, 0xb5c0fbcf, 0xe9b5dba5, 0x3956c25b, 0x59f111f1, 0x923f82a4, 0xab1c5ed5,
  0xd807aa98, 0x12835b01, 0x243185be, 0x550c7dc3, 0x72be5d74, 0x80deb1fe, 0x9bdc06a7, 0xc19bf174,
  0xe49b69c1, 0xefbe4786, 0x0fc19dc6, 0x240ca1cc, 0x2de92c6f, 0x4a7484aa, 0x5cb0a9dc, 0x76f988da,
  0x983e5152, 0xa831c66d, 0xb00327c8, 0xbf597fc7, 0xc6e00bf3, 0xd5a79147, 0x06ca6351, 0x14292967,
  0x27b70a85, 0x2e1b2138, 0x4d2c6dfc, 0x53380d13, 0x650a7354, 0x766a0abb, 0x81c2c92e, 0x92722c85,
  0xa2bfe8a1, 0xa81a664b, 0xc24b8b70, 0xc76c51a3, 0xd192e819, 0xd6990624, 0xf40e3585, 0x106aa070,
  0x19a4c116, 0x1e376c08, 0x2748774c, 0x34b0bcb5, 0x391c0cb3, 0x4ed8aa4a, 0x5b9cca4f, 0x682e6ff3,
  0x748f82ee, 0x78a5636f, 0x84c87814, 0x8cc70208, 0x90befffa, 0xa4506ceb, 0xbef9a3f7, 0xc67178f2]

structure Chain where
  a : UInt32
  b : UInt32
  c : UInt32
  d : UInt32
  e : UInt32
  f : UInt32
  g : UInt32
  h : UInt32

def Chain.initial : Chain :=
  ⟨0x6a09e667, 0xbb67ae85, 0x3c6ef372, 0xa54ff53a, 0x510e527f, 0x9b05688c, 0x1f83d9ab, 0x5be0cd19⟩

def Chain.add (s t : Chain) : Chain :=
  ⟨s.a + t.a, s.b + t.b, s.c + t.c, s.d + t.d, s.e + t.e, s.f + t.f, s.g + t.g, s.h + t.h⟩

def rotateRight (x n : UInt32) : UInt32 := (x >>> n) ||| (x <<< (32 - n))

def scheduleWord (w : List UInt32) : UInt32 :=
  let x := w.getD 1 0
  let y := w.getD 14 0
  (rotateRight x 17 ^^^ rotateRight x 19 ^^^ (x >>> 10)) + w.getD 6 0 +
    (rotateRight y 7 ^^^ rotateRight y 18 ^^^ (y >>> 3)) + w.getD 15 0

def schedule : ℕ → List UInt32 → List UInt32
  | 0, w => w
  | n + 1, w => schedule n (scheduleWord w :: w)

def round (s : Chain) (kw : UInt32 × UInt32) : Chain :=
  let t1 := s.h + (rotateRight s.e 6 ^^^ rotateRight s.e 11 ^^^ rotateRight s.e 25) +
    ((s.e &&& s.f) ^^^ ((~~~ s.e) &&& s.g)) + kw.1 + kw.2
  let t2 := (rotateRight s.a 2 ^^^ rotateRight s.a 13 ^^^ rotateRight s.a 22) +
    ((s.a &&& s.b) ^^^ (s.a &&& s.c) ^^^ (s.b &&& s.c))
  ⟨t1 + t2, s.a, s.b, s.c, s.d + t1, s.e, s.f, s.g⟩

def compress (s : Chain) (block : List UInt32) : Chain :=
  s.add ((roundConstants.zip (schedule 48 block.reverse).reverse).foldl round s)

def word (a b c d : UInt8) : UInt32 :=
  (a.toUInt32 <<< 24) ||| (b.toUInt32 <<< 16) ||| (c.toUInt32 <<< 8) ||| d.toUInt32

def words : List UInt8 → List UInt32
  | a :: b :: c :: d :: bytes => word a b c d :: words bytes
  | _ => []

def compressAll : ℕ → Chain → List UInt32 → Chain
  | 0, s, _ => s
  | n + 1, s, w => compressAll n (compress s (w.take 16)) (w.drop 16)

def pad (message : List UInt8) : List UInt8 :=
  message ++ 0x80 :: List.replicate ((119 - message.length % 64) % 64) 0 ++ BigEndian.bytes 8 (8 * message.length)

def wordBytes (x : UInt32) : List UInt8 := BigEndian.bytes 4 x.toNat

def Chain.bytes (s : Chain) : List UInt8 :=
  wordBytes s.a ++ wordBytes s.b ++ wordBytes s.c ++ wordBytes s.d ++ wordBytes s.e ++ wordBytes s.f ++ wordBytes s.g ++
    wordBytes s.h

def digest (message : List UInt8) : List UInt8 :=
  let w := words (pad message)
  (compressAll (w.length / 16) Chain.initial w).bytes

def hexDigit (n : ℕ) : Char := "0123456789abcdef".toList.getD n '0'

def hex (bytes : List UInt8) : List Char := bytes.flatMap fun b => [hexDigit (b.toNat / 16), hexDigit (b.toNat % 16)]

theorem mem_hex {bytes : List UInt8} {c : Char} (h : c ∈ hex bytes) : c ∈ "0123456789abcdef".toList := by
  have hdigit : ∀ n, hexDigit n ∈ "0123456789abcdef".toList := by
    intro n
    rw [hexDigit, List.getD_eq_getElem?_getD]
    cases hn : "0123456789abcdef".toList[n]? with
    | none => exact List.mem_cons_self
    | some c => exact List.mem_of_getElem? hn
  obtain ⟨b, -, hb⟩ := List.mem_flatMap.1 h
  rcases List.mem_cons.1 hb with rfl | hb
  · exact hdigit _
  · obtain rfl := List.mem_singleton.1 hb
    exact hdigit _

example : hex (digest [0x61, 0x62, 0x63]) =
    "ba7816bf8f01cfea414140de5dae2223b00361a396177a9cb410ff61f20015ad".toList := by decide +kernel

end Sha256
end SecureChat
