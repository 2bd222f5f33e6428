import Handoff.Error
import Handoff.Text.Boundary
import Handoff.Wire.Source

namespace Handoff.Wire

/-- Four bytes, least significant first. -/
def word (n : UInt32) : List UInt8 :=
  [.ofNat n.toNat, .ofNat (n.toNat / 256), .ofNat (n.toNat / 256 / 256),
    .ofNat (n.toNat / 256 / 256 / 256)]

/-- The number of some bytes, least significant first. -/
def ofWord (bytes : List UInt8) : UInt32 :=
  .ofNat (bytes.foldr (fun b n => n * 256 + b.toNat) 0)

def handle (h : Handle) : List UInt8 :=
  word h.raw

def status (s : Status) : List UInt8 :=
  word s.toUInt32

/-- A text after its length; what is too long is cut. -/
def text (s : String) : List UInt8 :=
  let bytes := Text.utf8 s
  let kept := bytes.take (Text.lastBoundary bytes (min bytes.length maxText))
  word (.ofNat kept.length) ++ kept

def readWord (src : Source) : Except PipeFault UInt32 × Source :=
  let (r, src) := src.readExact 4
  (r.map ofWord, src)

def readHandle (src : Source) : Except PipeFault Handle × Source :=
  let (r, src) := readWord src
  (r.map Handle.mk, src)

def readStatus (src : Source) : Except PipeFault Status × Source :=
  let (r, src) := readWord src
  (r.map UInt32.toInt32, src)

/-- Reads a text after its length. Bytes that are no text are replaced, not refused. -/
def readText (src : Source) : Except Fault String × Source :=
  match readWord src with
  | (.error f, src) => (.error (.pipe f), src)
  | (.ok length, src) =>
    if maxText < length.toNat then (.error (.tooLong length), src)
    else
      let (r, src) := src.readExact length.toNat
      ((r.map Text.ofUtf8Lossy).mapError .pipe, src)

theorem size_readWord (src : Source) : (readWord src).2.size ≤ src.size :=
  Source.size_readExact 4 src

theorem size_readHandle (src : Source) : (readHandle src).2.size ≤ src.size :=
  size_readWord src

end Handoff.Wire
