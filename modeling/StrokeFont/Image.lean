import StrokeFont.Canvas.Basic

namespace StrokeFont.Image

/-- Whether a format takes a picture with an alpha component. One that does not refuses it with a message,
before the file is opened or after. -/
inductive Support where
  | refusedUnopened (message : String)
  | refusedOpen (message : String)
  | taken (encode : Canvas → List UInt8)

structure Format where
  extensions : List String
  support : Support

def bigEndian (width n : Nat) : List UInt8 :=
  (List.range width).reverse.map fun k => UInt8.ofNat ((n >>> (8 * k)) % 256)

def littleEndian (width n : Nat) : List UInt8 := (bigEndian width n).reverse

def crcByte (crc : UInt32) (b : UInt8) : UInt32 :=
  (List.range 8).foldl
    (fun c _ => if c &&& 1 = 1 then (c >>> 1) ^^^ 0xedb88320 else c >>> 1)
    (crc ^^^ b.toUInt32)

def crc (bytes : List UInt8) : UInt32 := bytes.foldl crcByte 0xffffffff ^^^ 0xffffffff

def adler (bytes : List UInt8) : Nat :=
  let (a, b) := bytes.foldl
    (fun (a, b) byte =>
      let a := (a + byte.toNat) % 65521
      (a, (b + a) % 65521))
    (1, 0)
  b * 65536 + a

def chunk (kind : String) (data : List UInt8) : List UInt8 :=
  let body := kind.toList.map (fun c => UInt8.ofNat c.toNat) ++ data
  bigEndian 4 data.length ++ body ++ bigEndian 4 (crc body).toNat

/-- Stored blocks of at most 65535 bytes each; the last one is marked. -/
def blocks : Nat → List UInt8 → List UInt8
  | 0, _ => []
  | fuel + 1, data =>
      let block := data.take 65535
      let rest := data.drop 65535
      let size := block.length
      (if rest.isEmpty then 1 else 0) :: littleEndian 2 size ++ littleEndian 2 (65535 - size) ++
        block ++ (if rest.isEmpty then [] else blocks fuel rest)

def scanlines (c : Canvas) : List UInt8 :=
  c.rows.flatMap fun row => 0 :: row.flatMap fun p => [p.red, p.green, p.blue, p.alpha]

def signature : List UInt8 := [0x89, 0x50, 0x4e, 0x47, 0x0d, 0x0a, 0x1a, 0x0a]

def png (c : Canvas) : List UInt8 :=
  let header := bigEndian 4 c.width ++ bigEndian 4 c.height ++ [8, 6, 0, 0, 0]
  let data := scanlines c
  let stream := 0x78 :: 0x01 :: blocks (data.length / 65535 + 1) data ++ bigEndian 4 (adler data)
  signature ++ chunk "IHDR" header ++ chunk "IDAT" stream ++ chunk "IEND" []

def ascii (text : String) : List UInt8 := text.toList.map fun c => UInt8.ofNat c.toNat

def reversedPixels (row : List Pixel) : List UInt8 :=
  row.flatMap fun p => [p.blue, p.green, p.red, p.alpha]

def dib (c : Canvas) : List UInt8 :=
  let size := 4 * (c.width * c.height)
  littleEndian 4 40 ++ littleEndian 4 c.width ++ littleEndian 4 c.height ++ littleEndian 2 1 ++
    littleEndian 2 32 ++ littleEndian 4 0 ++ littleEndian 4 size ++ littleEndian 4 3780 ++
    littleEndian 4 3780 ++ littleEndian 4 0 ++ littleEndian 4 0 ++
    c.rows.reverse.flatMap reversedPixels

def bmp (c : Canvas) : List UInt8 :=
  let body := dib c
  ascii "BM" ++ littleEndian 4 (14 + body.length) ++ littleEndian 4 0 ++ littleEndian 4 54 ++ body

def ppm (c : Canvas) : List UInt8 :=
  ascii s!"P6\n{c.width} {c.height}\n255\n" ++
    c.rows.flatMap fun row => row.flatMap fun p => [p.red, p.green, p.blue]

def tga (c : Canvas) : List UInt8 :=
  [0, 0, 2, 0, 0, 0, 0, 0, 0, 0, 0, 0] ++ littleEndian 2 c.width ++ littleEndian 2 c.height ++
    [32, 0x28] ++ c.rows.flatMap reversedPixels

def formats : List Format := [
  ⟨[".png", ".apng"], .taken png⟩,
  ⟨[".bmp"], .taken bmp⟩,
  ⟨[".dib"], .taken dib⟩,
  ⟨[".pbm", ".pgm", ".ppm", ".pnm", ".pfm"], .taken ppm⟩,
  ⟨[".tga", ".icb", ".vda", ".vst"], .taken tga⟩]

end StrokeFont.Image
