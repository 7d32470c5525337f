/-! # The 64 bit xxHash

The fast hash that file stamps are made with, with seed zero.  It reads stripes of four words, then
single words, one half word and single bytes.
-/
namespace Restyle.XxHash

def prime1 : UInt64 := 11400714785074694791
def prime2 : UInt64 := 14029467366897019727
def prime3 : UInt64 := 1609587929392839161
def prime4 : UInt64 := 9650029242287828579
def prime5 : UInt64 := 2870177450012600261

def rotate (x : UInt64) (n : UInt64) : UInt64 := (x <<< n) ||| (x >>> (64 - n))

def littleEndian (bytes : List UInt8) : UInt64 :=
  bytes.foldr (fun b n => n * 256 + b.toUInt64) 0

def wordBytes (n : Nat) : List UInt8 :=
  (List.range 8).map fun i => (n / Nat.pow 256 i % 256).toUInt8

def round (lane word : UInt64) : UInt64 := rotate (lane + word * prime2) 31 * prime1

structure Lanes where
  a : UInt64 := prime1 + prime2
  b : UInt64 := prime2
  c : UInt64 := 0
  d : UInt64 := 0 - prime1

def Lanes.stripe (s : Lanes) (bytes : List UInt8) : Lanes :=
  let word := fun i => littleEndian ((bytes.drop (8 * i)).take 8)
  ⟨round s.a (word 0), round s.b (word 1), round s.c (word 2), round s.d (word 3)⟩

def merge (h lane : UInt64) : UInt64 := (h ^^^ round 0 lane) * prime1 + prime4

def Lanes.join (s : Lanes) : UInt64 :=
  let h := rotate s.a 1 + rotate s.b 7 + rotate s.c 12 + rotate s.d 18
  [s.a, s.b, s.c, s.d].foldl merge h

def Lanes.stripes (s : Lanes) : Nat → List UInt8 → Lanes × List UInt8
  | 0, bytes => (s, bytes)
  | n + 1, bytes => (s.stripe (bytes.take 32)).stripes n (bytes.drop 32)

def words (h : UInt64) : Nat → List UInt8 → UInt64 × List UInt8
  | 0, bytes => (h, bytes)
  | n + 1, bytes =>
    words (rotate (h ^^^ round 0 (littleEndian (bytes.take 8))) 27 * prime1 + prime4) n (bytes.drop 8)

def halfWord (h : UInt64) (bytes : List UInt8) : UInt64 × List UInt8 :=
  if bytes.length < 4 then (h, bytes)
  else (rotate (h ^^^ (littleEndian (bytes.take 4) * prime1)) 23 * prime2 + prime3, bytes.drop 4)

def spread (h : UInt64) : UInt64 :=
  let h := (h ^^^ (h >>> 33)) * prime2
  let h := (h ^^^ (h >>> 29)) * prime3
  h ^^^ (h >>> 32)

def hash (bytes : List UInt8) : UInt64 :=
  let (start, rest) :=
    if bytes.length < 32 then (prime5, bytes)
    else
      let (lanes, rest) := Lanes.stripes {} (bytes.length / 32) bytes
      (lanes.join, rest)
  let h := start + bytes.length.toUInt64
  let (h, rest) := words h (rest.length / 8) rest
  let (h, rest) := halfWord h rest
  spread (rest.foldl (fun h b => rotate (h ^^^ (b.toUInt64 * prime5)) 11 * prime1) h)

end Restyle.XxHash
