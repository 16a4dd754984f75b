import Chip8.Text.Utf8

/-!
# Reading characters from bytes

A stream gives the characters of its bytes in the numbers in which they are asked for. It decodes
the bytes in chunks, ahead of what is asked for, and so a fault in a chunk shows before the
characters in front of it are read. Lines may end in any of the three usual ways.
-/

namespace Chip8.Text

structure Stream where
  /-- The bytes that are not decoded yet. -/
  bytes : List UInt8
  begun : Utf8.State := {}
  /-- The last character was a carriage return, behind which a line break may follow. -/
  returned : Bool := false
  /-- The characters that are decoded and not read yet. -/
  ready : List Char := []
  /-- How many bytes the last chunk had, and how many characters came of them. -/
  spent : Nat := 1
  gained : Nat := 1

namespace Stream

/-- A carriage return, alone or before a line break, counts as a line break. -/
def plainBreaks : List Char → List Char
  | [] => []
  | '\r' :: '\n' :: cs => '\n' :: plainBreaks cs
  | c :: cs => (if c = '\r' then '\n' else c) :: plainBreaks cs

/-- How many bytes to decode at once for a number of characters, if the bytes go on as in the last
chunk. -/
def chunkSize (s : Stream) (wanted : Nat) : Nat :=
  max 8192 (s.spent * wanted / s.gained)

theorem chunkSize_pos (s : Stream) (wanted : Nat) : 0 < s.chunkSize wanted := by
  unfold chunkSize
  omega

/-- Decode a chunk of so many bytes. -/
def decodeChunk (s : Stream) (size : Nat) : Option Stream := do
  let chunk := s.bytes.take size
  let (cs, begun) ← Utf8.decode s.begun chunk
  let cs := if s.returned && !cs.isEmpty then '\r' :: cs else cs
  let returned := if cs.isEmpty then s.returned else cs.getLast? = some '\r'
  let plain := plainBreaks (if returned then cs.dropLast else cs)
  let (spent, gained) := if plain.isEmpty then (1, 1) else (chunk.length, plain.length)
  return { bytes := s.bytes.drop size, begun, returned, ready := s.ready ++ plain, spent, gained }

theorem length_decodeChunk_lt {s t : Stream} {size : Nat} (hs : s.bytes ≠ []) (hn : 0 < size)
    (h : s.decodeChunk size = some t) : t.bytes.length < s.bytes.length := by
  simp only [decodeChunk, Option.bind_eq_bind, Option.bind_eq_some_iff] at h
  obtain ⟨r, -, h⟩ := h
  cases h
  have := List.length_pos_iff.2 hs
  rw [List.length_drop]
  omega

/-- Behind the last byte no character may have begun. -/
def finish (s : Stream) : Option Stream :=
  if s.begun.owed ≠ 0 then none
  else some { s with ready := s.ready ++ (if s.returned then ['\n'] else []), returned := false }

def takeReady (s : Stream) (n : Nat) : List Char × Stream :=
  (s.ready.take n, { s with ready := s.ready.drop n })

/-- Read so many characters, or fewer at the end. There is no answer if there is a fault in the
chunks that it takes. -/
def read (s : Stream) (n : Nat) : Option (List Char × Stream) :=
  if n ≤ s.ready.length then some (s.takeReady n)
  else if hs : s.bytes = [] then s.finish.map (·.takeReady n)
  else
    match h : s.decodeChunk (s.chunkSize (n - s.ready.length)) with
    | none => none
    | some t =>
      have := length_decodeChunk_lt hs (s.chunkSize_pos _) h
      t.read n
termination_by s.bytes.length

end Stream

end Chip8.Text
