import PeerCrawl.Wire.Header

set_option autoImplicit false

/-! # Streams of frames

A stream is cut into the complete frames that it starts with. What cannot be cut off, because it is
incomplete or has a header that is none, is left. -/

namespace PeerCrawl

namespace Wire

/-- The frame that a stream starts with, and the bytes after it. -/
def firstFrame? (stream : Bytes) : Option ((Header × Bytes) × Bytes) :=
  match Reader.header.run stream with
  | (.error _, _) => none
  | (.ok header, rest) =>
    let length := header.payloadLength.toNat
    if isShorter rest length then none else some ((header, rest.take length), rest.drop length)

/-- The frames that a stream starts with, at most so many, and the bytes after them. -/
def cutFrames : (most : Nat) → Bytes → List (Header × Bytes) × Bytes
  | 0, stream => ([], stream)
  | most + 1, stream =>
    match firstFrame? stream with
    | none => ([], stream)
    | some (frame, rest) =>
      let (frames, rest) := cutFrames most rest
      (frame :: frames, rest)

/-- The complete frames that a stream starts with, and the bytes after them. -/
def frames (stream : Bytes) : List (Header × Bytes) × Bytes := cutFrames stream.length stream

end Wire

end PeerCrawl
