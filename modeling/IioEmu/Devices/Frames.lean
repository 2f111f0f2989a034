import IioEmu.Foundation.Memory

/-! # Frames

A client delivers one buffer of a transmitter as a frame: some writes of whole
words and then a transfer. How the words are cut into writes is up to the
network. -/

namespace IioEmu

structure Chunk where
  offset : Nat
  words : List Word

def Chunk.buf (chunk : Chunk) : List Byte := bytesOfWords chunk.words

def Chunk.bytesCount (chunk : Chunk) : Nat := 2 * chunk.words.length

theorem Chunk.loadWords (chunk : Chunk) :
    IioEmu.loadWords chunk.buf (chunk.bytesCount / 2) = .ok chunk.words := by
  simp [Chunk.buf, Chunk.bytesCount]

structure Frame where
  first : Chunk
  more : List Chunk
  bytesCount : Nat

def Frame.chunks (frame : Frame) : List Chunk := frame.first :: frame.more

def Frame.words (frame : Frame) : List Word := frame.chunks.flatMap Chunk.words

end IioEmu
